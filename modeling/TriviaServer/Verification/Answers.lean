import TriviaServer.Interaction.Discipline
import TriviaServer.Verification.Questions

/-! # Answers before the answer is out

An answer is checked, held until the release time of its question, and recorded then, when the
call returns the correct answer. Every check that passes for a question comes before its
release, and so before anybody is told the correct answer. A call tells it only behind its own
record, and nothing but what the record has returned. -/

namespace TriviaServer

open Interaction
open Program (Only OnlyThen)

variable {P : Platform} {d : Bool} {g : String} {s s' : Managers}

/-! ## The times of a question -/

namespace Game

/-- The release time that the code computes for a question, in 32 bits. -/
def releaseOf (timePerQuestion questionIndex : UInt32) : UInt32 :=
  (questionIndex + 1) * (timePerQuestion + 5) - 5

variable {gm : Game} {now : ℕ} {answerIndex questionIndex release answerTime : UInt32}

/-- A check that passes is made before the answer is released. -/
theorem Accepts.lt_releasedAt (h : gm.Accepts now answerIndex questionIndex release answerTime) :
    now < gm.releasedAt release := by
  have hlt := h.before_release
  rw [timeSinceGameStart, Nat.div_lt_iff_lt_mul (by decide)] at hlt
  rw [releasedAt]
  omega

/-- A check that passes for one of the questions is made before the game is finished. -/
theorem Accepts.not_finished (h : gm.Accepts now answerIndex questionIndex release answerTime)
    (hindex : questionIndex.toNat < gm.questions.length) (hcount : gm.questions.length < 2 ^ 32) :
    gm.isFinished now = false := by
  rw [h.questionIndex_eq_div, Nat.div_lt_iff_lt_mul (time_pos h.time_ne_zero)] at hindex
  rw [Bool.eq_false_iff, ne_eq, isFinished_iff hcount]
  omega

end Game

/-! ## The number of questions -/

/-- A game is stored with no more questions than an `unsigned int` counts. -/
def Op.PushesCounted : Op → Prop
  | .game (.pushGame questions ..) => questions.length < 2 ^ 32
  | _ => True

theorem Op.Reads.pushesCounted {E : Fault → Prop} {o : Op} (ho : o.Reads E) : o.PushesCounted := by
  cases o with
  | game => exact ho.elim
  | _ => trivial

namespace GameManager

theorem toQuestions_length (questions : List QuestionDb) :
    (toQuestions questions).OnlyThen Op.PushesCounted fun qs => qs.length = questions.length := by
  induction questions with
  | nil => exact rfl
  | cons question rest ih =>
      refine ⟨trivial, fun shuffled => ?_⟩
      exact ih.then fun qs hqs => congrArg (· + 1) hqs

/-- The count that was asked for is an `unsigned int`, and another number of questions is an
error. -/
theorem createGame_pushesCounted (room : String) : (createGame room).Only Op.PushesCounted := by
  have hreads : ∀ {α : Type} {p : Action α}, p.Only (Op.Reads fun _ => True) →
      p.Only Op.PushesCounted := fun hp => hp.mono fun _ ho => ho.pushesCounted
  refine Only.bind ⟨trivial, fun r => trivial⟩ fun metadata =>
    Only.bind (hreads (SqliteDatabase.getQuestions_reads _)) fun questions => ?_
  cases questions with
  | error e => trivial
  | ok questionsDb =>
      refine Only.bind ⟨trivial, fun r => trivial⟩ fun metadata => ?_
      split_ifs with hlen
      · trivial
      · refine ((toQuestions_length questionsDb).then fun questions hquestions =>
          Only.then_true ?_).only
        refine Only.bind ⟨trivial, fun r => trivial⟩ fun players =>
          Only.bind ⟨trivial, fun r => trivial⟩ fun metadata' => ⟨?_, fun _ => trivial⟩
        show questions.length < 2 ^ 32
        rw [hquestions, not_not.mp hlen]
        exact (metadata : RoomData).questionCount.toNat_lt

end GameManager

/-! ## The calls of the players -/

/-- Requests of players to the handler of one game. -/
def playerCalls (P : Platform) (g : String) :
    Service operations Unit (LoggedUser × RequestInfo) RequestResult Unit where
  initial := ()
  admits _ call :=
    call.2.requestId ∈ [.getQuestionRequest, .submitAnswerRequest, .getGameResultsRequest]
  serve _ call := GameRequestHandler.handleRequest P g call.1 call.2
  next _ _ _ := some ()

/-- Where a player is: between two requests; in one that has not passed its check; behind a
test that found the game finished; behind the check, behind the sleep and behind the record of
an answer. -/
inductive AnswerStanding where
  | idle
  | asked (user : LoggedUser)
  | ended
  | checked (user : LoggedUser) (answerIndex questionIndex : UInt32) (times : UInt32 × UInt32)
  | slept (user : LoggedUser) (answerIndex questionIndex : UInt32) (times : UInt32 × UInt32)
  | recorded (questionIndex correct : UInt32)
  deriving DecidableEq

namespace AnswerStanding

def observe (st : AnswerStanding)
    (o : Observation operations Unit (LoggedUser × RequestInfo) RequestResult) : AnswerStanding :=
  match st, o with
  | _, .finished .. => idle
  | idle, .received _ call => asked call.1
  | asked user, .called ⟨.game (.isFinished _), finished⟩ =>
      if (finished : Bool) then ended else asked user
  | asked user, .called ⟨.game (.checkAnswer _ answerIndex questionIndex), res⟩ =>
      match (res : Result (UInt32 × UInt32)) with
      | .error _ => asked user
      | .ok times => checked user answerIndex questionIndex times
  | checked user answerIndex questionIndex times, .called ⟨.game (.sleepUntilReleased ..), _⟩ =>
      slept user answerIndex questionIndex times
  | slept .., .called ⟨.game (.recordAnswer _ _ _ questionIndex _), correct⟩ =>
      recorded questionIndex correct
  | st, _ => st

end AnswerStanding

/-- What a request of a player does beside the answer. -/
def Op.Browses (g : String) : Op → Prop
  | .game (.getCurrentQuestion id) => id = g
  | .game (.getPlayersResults id) => id = g
  | .game (.getOnlinePlayers id) => id = g
  | o => o.Reads fun _ => True

def isResults (result : RequestResult) : Bool :=
  match result.buffer with
  | some (.getGameResults ..) => true
  | _ => false

/-- The correct answer that a result tells. -/
def answerOf (result : RequestResult) : Option UInt32 :=
  match result.buffer with
  | some (.submitAnswer _ correctAnswer) => some correctAnswer
  | _ => none

/-- The question that the body of a request names. -/
def questionOf (P : Platform) (request : RequestInfo) : Option UInt32 :=
  match JsonDeserializer.deserializeSubmitAnswerRequest (P.parse request.buffer) with
  | .ok (.ok details) => some details.questionId
  | _ => none

/-- A request does not end between its check and its record, it ends with results only behind a
test that found the game finished, and it tells an answer only behind a record, for its own
question and as the record returned it. -/
def AnswerStanding.Ends (P : Platform) (st : AnswerStanding) (call : LoggedUser × RequestInfo)
    (result : RequestResult) : Prop :=
  match st with
  | .checked .. | .slept .. => False
  | .ended => answerOf result = none
  | .recorded questionIndex correct =>
      isResults result = false ∧ questionOf P call.2 = some questionIndex ∧
        answerOf result = some correct
  | .idle | .asked _ => isResults result = false ∧ answerOf result = none

namespace AnswerStanding

theorem observe_finished (st : AnswerStanding) (call : LoggedUser × RequestInfo)
    (r : RequestResult) (next : Option Unit) : st.observe (.finished () call r next) = idle := by
  cases st <;> rfl

variable {st : AnswerStanding} {call : LoggedUser × RequestInfo} {result : RequestResult}

theorem Ends.over_of_results (h : st.Ends P call result) (hresults : isResults result = true) :
    st = ended := by
  cases st with
  | ended => rfl
  | checked | slept => exact h.elim
  | idle | asked | recorded => exact nomatch hresults.symm.trans h.1

theorem Ends.recorded_of_answer {correct : UInt32} (h : st.Ends P call result)
    (hanswer : answerOf result = some correct) :
    ∃ questionIndex, st = recorded questionIndex correct ∧
      questionOf P call.2 = some questionIndex := by
  cases st with
  | checked | slept => exact h.elim
  | ended => exact nomatch hanswer.symm.trans h
  | idle | asked => exact nomatch hanswer.symm.trans h.2
  | recorded questionIndex correct' =>
      obtain ⟨-, hquestion, hcorrect⟩ := h
      obtain rfl : correct = correct' := Option.some.inj (hanswer.symm.trans hcorrect)
      exact ⟨questionIndex, rfl, hquestion⟩

end AnswerStanding

/-- Behind the record of an answer there is nothing left to do. -/
def AnswerStanding.Done : AnswerStanding → Prop
  | .recorded .. => True
  | _ => False

/-- A player records the answer that it has checked, and behind the sleep. -/
def answerDiscipline (P : Platform) (g : String) :
    Discipline operations Unit (LoggedUser × RequestInfo) RequestResult AnswerStanding where
  initial := .idle
  observe := AnswerStanding.observe
  allowed st o :=
    match o with
    | .game (.isFinished id) => id = g ∧ ∃ user, st = .asked user
    | .game (.checkAnswer id _ _) => id = g ∧ ∃ user, st = .asked user
    | .game (.sleepUntilReleased id release) =>
        id = g ∧ ∃ user answerIndex questionIndex answerTime,
          st = .checked user answerIndex questionIndex (release, answerTime)
    | .game (.recordAnswer id user answerIndex questionIndex answerTime) =>
        id = g ∧ ∃ release, st = .slept user answerIndex questionIndex (release, answerTime)
    | o => o.Browses g ∧ ¬ st.Done
  assumed _ _ := True
  mayFinish st _ call result := st.Ends P call result

theorem answerDiscipline_observe (P : Platform) (g : String) :
    (answerDiscipline P g).observe = AnswerStanding.observe := rfl

theorem AnswerStanding.neutralAt_of_browses {st : AnswerStanding} (hst : ¬ st.Done) {o : Op}
    (ho : o.Browses g) : (answerDiscipline P g).NeutralAt st o := by
  cases o with
  | login | room => exact ho.elim
  | database | external => exact ⟨⟨ho, hst⟩, fun _ => by cases st <;> rfl⟩
  | game o =>
      cases o with
      | getCurrentQuestion | getPlayersResults | getOnlinePlayers =>
          exact ⟨⟨ho, hst⟩, fun _ => by cases st <;> rfl⟩
      | _ => exact ho.elim

theorem Op.Reads.browses {o : Op} (ho : o.Reads fun _ => True) : o.Browses g := by
  cases o with
  | game o => exact ho.elim
  | _ => exact ho

theorem browses_game {o : GameOp} (ho : (Op.game o).Browses g) :
    (Action.game o).Only (Op.Browses g) :=
  Program.only_call (S := operations) ho

section Obeying

variable {user : LoggedUser} {request : RequestInfo}
  {Q : List (Event operations) → RequestResult → AnswerStanding → Prop}

theorem wp_browses {α : Type} {p : Action α} {ψ : α → Prop} {st : AnswerStanding}
    (hst : ¬ st.Done) (hp : p.OnlyThen (Op.Browses g) ψ)
    {Q : List (Event operations) → α → AnswerStanding → Prop} (h : ∀ t a, ψ a → Q t a st) :
    wp (answerDiscipline P g).machine (fun _ => False) p Q st :=
  Discipline.wp_neutralAt_then (hp.imp fun _ => AnswerStanding.neutralAt_of_browses hst) h

theorem wp_isFinished_asked {α : Type} {f : Bool → Action α}
    {Q : List (Event operations) → α → AnswerStanding → Prop}
    (hended : ∀ t, wp (answerDiscipline P g).machine (fun _ => False) (f true)
      (fun t' => Q (t ++ t')) .ended)
    (hrunning : ∀ t, wp (answerDiscipline P g).machine (fun _ => False) (f false)
      (fun t' => Q (t ++ t')) (.asked user)) :
    wp (answerDiscipline P g).machine (fun _ => False) (Action.game (.isFinished g) >>= f) Q
      (.asked user) := by
  rw [wp_bind]
  refine Discipline.wp_call (D := answerDiscipline P g) ⟨rfl, user, rfl⟩ fun finished _ => ?_
  cases (finished : Bool) with
  | true => exact hended _
  | false => exact hrunning _

theorem wp_getQuestion (h : ∀ t r st, st.Ends P (user, request) r → Q t r st) :
    wp (answerDiscipline P g).machine (fun _ => False) (GameRequestHandler.getQuestion g user) Q
      (.asked user) := by
  unfold GameRequestHandler.getQuestion
  refine wp_isFinished_asked (fun _ => ?_) fun _ => ?_
  · exact (wp_pure ..).mpr (h _ _ _ rfl)
  · simp only [Bool.false_eq_true, if_false, wp_bind]
    refine wp_browses id (browses_game (o := .getCurrentQuestion g) rfl).then_true
      fun _ question _ => ?_
    exact (wp_pure ..).mpr (h _ _ _ ⟨rfl, rfl⟩)

theorem wp_submitAnswer (h : ∀ t r st, st.Ends P (user, request) r → Q t r st) :
    wp (answerDiscipline P g).machine (fun _ => False)
      (GameRequestHandler.submitAnswer P g user request) Q (.asked user) := by
  unfold GameRequestHandler.submitAnswer
  rw [wp_bind]
  refine wp_browses (ψ := fun details => JsonDeserializer.deserializeSubmitAnswerRequest
    (P.parse request.buffer) = .ok details) id ?_ fun _ details hdetails => ?_
  · cases JsonDeserializer.deserializeSubmitAnswerRequest (P.parse request.buffer) with
    | error e => exact ⟨trivial, fun r => nomatch r⟩
    | ok details => exact rfl
  · cases details with
    | error e => exact (wp_pure ..).mpr (h _ _ _ ⟨rfl, rfl⟩)
    | ok details =>
        have hquestion : questionOf P request = some details.questionId := by
          rw [questionOf, hdetails]
        refine wp_isFinished_asked (fun _ => ?_) fun _ => ?_
        · exact (wp_pure ..).mpr (h _ _ _ rfl)
        · unfold TriviaServer.submitAnswer
          simp only [Bool.false_eq_true, if_false, wp_bind]
          refine Discipline.wp_call (D := answerDiscipline P g) ⟨rfl, user, rfl⟩ fun res _ => ?_
          match res with
          | .error e =>
              simp only [wp_pure]
              exact h _ _ _ ⟨rfl, rfl⟩
          | .ok times =>
              show wp _ _ _ _
                (AnswerStanding.checked user details.answerId details.questionId times)
              simp only [wp_bind]
              refine Discipline.wp_call (D := answerDiscipline P g)
                ⟨rfl, user, details.answerId, details.questionId, times.2, rfl⟩ fun _ _ => ?_
              show wp _ _ _ _ (AnswerStanding.slept user details.answerId details.questionId times)
              refine Discipline.wp_call (D := answerDiscipline P g)
                ⟨rfl, times.1, rfl⟩ fun correct _ => ?_
              simp only [wp_pure]
              exact h _ _ _ ⟨rfl, hquestion, rfl⟩

theorem wp_getGameResults (h : ∀ t r st, st.Ends P (user, request) r → Q t r st) :
    wp (answerDiscipline P g).machine (fun _ => False)
      (GameRequestHandler.getGameResults g user) Q (.asked user) := by
  unfold GameRequestHandler.getGameResults
  refine wp_isFinished_asked (fun _ => ?_) fun _ => ?_
  · simp only [Bool.not_true, Bool.false_eq_true, if_false]
    refine wp_browses (ψ := fun r => answerOf r = none) id ?_ fun _ r hr => h _ _ _ hr
    refine OnlyThen.bind (browses_game rfl) fun usersMap =>
      OnlyThen.bind (browses_game rfl) fun online => OnlyThen.bind
        ((UsersManager.transformLoggedUsersToPlayers_reads _).mono fun _ ho => ho.browses)
        fun players => ?_
    cases players with
    | error e => exact rfl
    | ok players =>
        refine OnlyThen.bind ?_ fun results => ?_
        · cases players.mapM (GameRequestHandler.playerResult usersMap online) with
          | error e => exact ⟨trivial, fun r => nomatch r⟩
          | ok results => trivial
        · cases usersMap[user]? with
          | none => exact ⟨trivial, fun r => nomatch r⟩
          | some data => exact rfl
  · exact (wp_pure ..).mpr (h _ _ _ ⟨rfl, rfl⟩)

end Obeying

theorem playerCalls_obey (P : Platform) (g : String) :
    (answerDiscipline P g).ObeyedBy (playerCalls P g) (fun _ st => st = .idle) fun _ => False where
  start := rfl
  serve := by
    rintro _ ⟨user, request⟩ _ hadmits rfl
    show wp _ _ (GameRequestHandler.handleRequest P g user request) _ (AnswerStanding.asked user)
    have hpost : ∀ (t : List (Event operations)) r (st : AnswerStanding),
        st.Ends P (user, request) r → (answerDiscipline P g).Post (playerCalls P g)
          (fun _ st => st = .idle) (fun _ => False) () (user, request) r st :=
      fun t r st h => ⟨h, fun _ => by cases st <;> rfl⟩
    unfold GameRequestHandler.handleRequest
    cases hid : request.requestId with
    | getQuestionRequest =>
        rw [if_neg (by simp [GameRequestHandler.isRequestRelevant, hid])]
        exact wp_getQuestion hpost
    | submitAnswerRequest =>
        rw [if_neg (by simp [GameRequestHandler.isRequestRelevant, hid])]
        exact wp_submitAnswer hpost
    | getGameResultsRequest =>
        rw [if_neg (by simp [GameRequestHandler.isRequestRelevant, hid])]
        exact wp_getGameResults hpost
    | _ => simp [playerCalls, hid] at hadmits

theorem Op.Browses.step {o : Op} {r : o.Answer} (ho : o.Browses g)
    (hs : (machine d).Step o s r s') : s'.game? g = s.game? g ∧ s.clock ≤ s'.clock := by
  cases o with
  | login | room => exact ho.elim
  | database o =>
      obtain ⟨_, _, -, -, rfl⟩ := DbOp.step_eq hs
      exact ⟨rfl, le_rfl⟩
  | external o =>
      rw [ExternalOp.step_eq hs]
      exact ⟨rfl, le_rfl⟩
  | game o =>
      refine ⟨?_, (GameOp.frame hs).2⟩
      obtain ⟨choice, -, hx⟩ := hs
      cases o with
      | getCurrentQuestion | getPlayersResults | getOnlinePlayers =>
          obtain rfl := readGame_eq hx
          rfl
      | _ => exact ho.elim

/-- The sleep ends at the release time or later. -/
theorem sleepUntilReleased_out {gm : Game} {release : UInt32} {choice : Choice} {r : Unit}
    (hg : s.game? g = some gm)
    (h : GameOp.exec (.sleepUntilReleased g release) choice s = .ok (r, s')) :
    s'.game? g = s.game? g ∧ gm.releasedAt release ≤ s'.clock := by
  have hfind : s.games.find? (·.uuid = g) = some gm := hg
  simp only [GameOp.exec, GameOp.readGame, hfind, Except.map, Except.ok.injEq, Prod.mk.injEq,
    true_and] at h
  obtain rfl := h
  exact ⟨rfl, (le_max_right _ _).trans (Nat.le_add_right _ _)⟩

/-! ## What a run says about an answer -/

abbrev PlayerEvent : Type :=
  LoggedUser × Observation operations Unit (LoggedUser × RequestInfo) RequestResult

/-- A check of the player's answer to the question passes. -/
def accepts (p : LoggedUser) (k : UInt32) (e : PlayerEvent) : Bool :=
  match e.2 with
  | .called ⟨.game (.checkAnswer _ _ questionIndex), res⟩ =>
      e.1 = p && questionIndex = k && (res : Result (UInt32 × UInt32)).isOk
  | _ => false

/-- The correct answer to the question is returned, by the record of an answer or by a request
that answers it, or the game is found finished, or its results are sent. -/
def Reveals (P : Platform) (k : UInt32) (e : PlayerEvent) : Prop :=
  match e.2 with
  | .called ⟨.game (.recordAnswer _ _ _ questionIndex _), _⟩ => questionIndex = k
  | .called ⟨.game (.isFinished _), finished⟩ => finished = true
  | .finished _ call result _ =>
      isResults result = true ∨ (questionOf P call.2 = some k ∧ answerOf result ≠ none)
  | _ => False

/-- The answer and the time that an event records for the player and the question. -/
def recordIn (p : LoggedUser) (k : ℕ) (e : PlayerEvent) : Option (UInt32 × UInt32) :=
  match e.2 with
  | .called ⟨.game (.recordAnswer _ user answerIndex questionIndex answerTime), _⟩ =>
      if user = p ∧ questionIndex.toNat = k then some (answerIndex, answerTime) else none
  | _ => none

/-- The last answer recorded for the player and the question. -/
def recordOf (p : LoggedUser) (k : ℕ) (trace : List PlayerEvent) : Option (UInt32 × UInt32) :=
  (trace.filterMap (recordIn p k)).getLast?

theorem recordOf_snoc (p : LoggedUser) (k : ℕ) (trace : List PlayerEvent) (e : PlayerEvent) :
    recordOf p k (trace ++ [e]) = (recordIn p k e).or (recordOf p k trace) := by
  unfold recordOf
  rw [List.filterMap_append]
  cases hrecord : recordIn p k e with
  | none => simp [hrecord]
  | some record => simp [hrecord]

/-- The answer that is recorded is one that the player's check has accepted. -/
def RecordsAccepted (g : String) (before : List PlayerEvent) (e : PlayerEvent) : Prop :=
  ∀ user answerIndex questionIndex answerTime correct,
    e.2 = .called ⟨.game (.recordAnswer g user answerIndex questionIndex answerTime), correct⟩ →
    e.1 = user ∧ ∃ release : UInt32, (user, .called
      ⟨.game (.checkAnswer g answerIndex questionIndex), .ok (release, answerTime)⟩) ∈ before

/-- No check for one of the questions passes when its answer is out. -/
def AcceptsBefore (P : Platform) (questions : List Question) (before : List PlayerEvent)
    (e : PlayerEvent) : Prop :=
  ∀ p k, k.toNat < questions.length → accepts p k e = true → ∀ e' ∈ before, ¬ Reveals P k e'

/-- The last thing that a player has done. -/
def lastOf (c : LoggedUser) (trace : List PlayerEvent) : Option PlayerEvent :=
  (trace.filter (·.1 = c)).getLast?

theorem lastOf_self (c : LoggedUser) (trace : List PlayerEvent)
    (o : Observation operations Unit (LoggedUser × RequestInfo) RequestResult) :
    lastOf c (trace ++ [(c, o)]) = some (c, o) := by
  simp [lastOf]

theorem lastOf_other {c c' : LoggedUser} (h : c' ≠ c) (trace : List PlayerEvent)
    (o : Observation operations Unit (LoggedUser × RequestInfo) RequestResult) :
    lastOf c (trace ++ [(c', o)]) = lastOf c trace := by
  simp [lastOf, h]

/-- An answer that a request tells is one to its own question, and what the player did last was
to record an answer to that question, which returned it. -/
def TellsRecorded (P : Platform) (g : String) (before : List PlayerEvent) (e : PlayerEvent) :
    Prop :=
  ∀ call result next correct, e.2 = .finished () call result next →
    answerOf result = some correct → ∃ questionIndex answerIndex answerTime,
      questionOf P call.2 = some questionIndex ∧ lastOf e.1 before = some (e.1, .called
        ⟨.game (.recordAnswer g e.1 answerIndex questionIndex answerTime), correct⟩)

theorem tellsRecorded_called {before : List PlayerEvent} {c : LoggedUser} {e : Event operations} :
    TellsRecorded P g before (c, .called e) :=
  fun _ _ _ _ heq => nomatch heq

/-- The answer is released, or the game is finished. -/
def Game.Out (gm : Game) (now : ℕ) (k : UInt32) : Prop :=
  gm.releasedAt (Game.releaseOf gm.timePerQuestion k) ≤ now ∨ gm.isFinished now = true

theorem Game.Out.mono {gm : Game} {now now' : ℕ} {k : UInt32} (h : gm.Out now k)
    (hle : now ≤ now') : gm.Out now' k :=
  h.imp (fun h => h.trans hle) (Game.isFinished_mono hle)

/-- The player's answer to the question is checked and not yet recorded. -/
def AnswerStanding.Pending (st : AnswerStanding) (k : UInt32) : Prop :=
  match st with
  | .checked _ _ questionIndex _ => questionIndex = k
  | .slept _ _ questionIndex _ => questionIndex = k
  | _ => False

/-- What holds of a player in each standing. -/
def AnswerStanding.Justified (g : String) (gm : Game) (clock : ℕ) (trace : List PlayerEvent)
    (c : LoggedUser) : AnswerStanding → Prop
  | .idle => True
  | .recorded k correct =>
      gm.releasedAt (Game.releaseOf gm.timePerQuestion k) ≤ clock ∧
        ∃ answerIndex answerTime, lastOf c trace = some (c, .called
          ⟨.game (.recordAnswer g c answerIndex k answerTime), correct⟩)
  | .asked user => user = c
  | .ended => gm.isFinished clock = true
  | .checked user answerIndex k times =>
      user = c ∧ times.1 = Game.releaseOf gm.timePerQuestion k ∧
        (c, .called ⟨.game (.checkAnswer g answerIndex k), .ok times⟩) ∈ trace
  | .slept user answerIndex k times =>
      user = c ∧ times.1 = Game.releaseOf gm.timePerQuestion k ∧
        (c, .called ⟨.game (.checkAnswer g answerIndex k), .ok times⟩) ∈ trace ∧
        gm.releasedAt times.1 ≤ clock

theorem AnswerStanding.Ends.not_pending {st : AnswerStanding} {call : LoggedUser × RequestInfo}
    {result : RequestResult} (h : st.Ends P call result) (k : UInt32) : ¬ st.Pending k := by
  cases st with
  | checked | slept => exact h.elim
  | idle | asked | ended | recorded => exact id

theorem AnswerStanding.Justified.mono {gm : Game} {clock clock' : ℕ} {trace : List PlayerEvent}
    {c : LoggedUser} {st : AnswerStanding} (h : st.Justified g gm clock trace c)
    (hle : clock ≤ clock') {e : PlayerEvent} (he : e.1 ≠ c ∨ ¬ st.Done) :
    st.Justified g gm clock' (trace ++ [e]) c := by
  cases st with
  | idle | asked => exact h
  | recorded k correct =>
      obtain ⟨hout, answerIndex, answerTime, hlast⟩ := h
      have hother := lastOf_other (he.resolve_right fun hnot => hnot trivial) trace e.2
      exact ⟨hout.trans hle, answerIndex, answerTime, hother.trans hlast⟩
  | ended => exact Game.isFinished_mono hle h
  | checked =>
      obtain ⟨huser, hrelease, hmem⟩ := h
      exact ⟨huser, hrelease, List.mem_append_left _ hmem⟩
  | slept =>
      obtain ⟨huser, hrelease, hmem, hout⟩ := h
      exact ⟨huser, hrelease, List.mem_append_left _ hmem, hout.trans hle⟩

/-- The game `gm` of a run, with the answers recorded so far. -/
structure Timely (P : Platform) (g : String) (gm : Game) (s : Managers)
    (standing : LoggedUser → AnswerStanding) (trace : List PlayerEvent) : Prop where
  game : ∃ players, s.game? g = some (gm.setPlayers players) ∧
    ∀ (p : LoggedUser) data, players[p]? = some data → data.answers =
      gm.questions.mapIdx fun k question =>
        (question, (recordOf p k trace).getD (5, gm.timePerQuestion))
  each : ∀ c, (standing c).Justified g gm s.clock trace c
  out : ∀ e ∈ trace, ∀ k, Reveals P k e → gm.Out s.clock k
  pending : ∀ p k, 0 < trace.countP (accepts p k) →
    (standing p).Pending k ∨ gm.releasedAt (Game.releaseOf gm.timePerQuestion k) ≤ s.clock
  once : ∀ p k, trace.countP (accepts p k) ≤ 1
  recorded : Throughout (RecordsAccepted g) trace
  before : Throughout (AcceptsBefore P gm.questions) trace
  told : Throughout (TellsRecorded P g) trace

namespace Timely

variable {gm : Game} {standing : LoggedUser → AnswerStanding} {trace : List PlayerEvent}
  {c : LoggedUser} {st : AnswerStanding}
  {o : Observation operations Unit (LoggedUser × RequestInfo) RequestResult}

theorem start (hg : s.game? g = some gm)
    (hnew : ∀ (p : LoggedUser) data, gm.players[p]? = some data →
      data.answers = gm.questions.mapIdx fun _ question => (question, 5, gm.timePerQuestion)) :
    Timely P g gm s (fun _ => .idle) [] where
  game := ⟨gm.players, hg, hnew⟩
  each _ := trivial
  out _ h := by simp at h
  pending _ _ h := by simp at h
  once _ _ := Nat.zero_le _
  recorded := throughout_nil
  before := throughout_nil
  told := throughout_nil

theorem each_update (h : Timely P g gm s standing trace) (hclock : s.clock ≤ s'.clock)
    (o : Observation operations Unit (LoggedUser × RequestInfo) RequestResult)
    (hst : st.Justified g gm s'.clock (trace ++ [(c, o)]) c) (c' : LoggedUser) :
    (Function.update standing c st c').Justified g gm s'.clock (trace ++ [(c, o)]) c' := by
  by_cases hcc : c' = c
  · subst hcc
    rwa [Function.update_self]
  · rw [Function.update_of_ne hcc]
    exact (h.each c').mono hclock (.inl (Ne.symm hcc))

theorem out_snoc (h : Timely P g gm s standing trace) (hclock : s.clock ≤ s'.clock)
    {e : PlayerEvent} (hnew : ∀ k, Reveals P k e → gm.Out s'.clock k) :
    ∀ e' ∈ trace ++ [e], ∀ k, Reveals P k e' → gm.Out s'.clock k := by
  intro e' he' k hreveals
  rcases List.mem_append.mp he' with he' | he'
  · exact (h.out e' he' k hreveals).mono hclock
  · rw [List.mem_singleton.mp he'] at hreveals
    exact hnew k hreveals

/-- An event that accepts no answer. -/
theorem pending_update (h : Timely P g gm s standing trace) (hclock : s.clock ≤ s'.clock)
    {e : PlayerEvent} (haccepts : ∀ p k, accepts p k e = false)
    (hpending : ∀ k, (standing c).Pending k →
      st.Pending k ∨ gm.releasedAt (Game.releaseOf gm.timePerQuestion k) ≤ s'.clock)
    (p : LoggedUser) (k : UInt32) (hpos : 0 < (trace ++ [e]).countP (accepts p k)) :
    (Function.update standing c st p).Pending k ∨
      gm.releasedAt (Game.releaseOf gm.timePerQuestion k) ≤ s'.clock := by
  have hold : 0 < trace.countP (accepts p k) := by
    simpa [List.countP_append, haccepts] using hpos
  rcases h.pending p k hold with hst | hle
  · by_cases hpc : p = c
    · subst hpc
      rw [Function.update_self]
      exact hpending k hst
    · exact .inl (by rwa [Function.update_of_ne hpc])
  · exact .inr (hle.trans hclock)

/-- Every other event only lets time pass, or takes the call on without a record. -/
theorem other (h : Timely P g gm s standing trace) (hgame : s'.game? g = s.game? g)
    (hclock : s.clock ≤ s'.clock) (hrecord : ∀ p k, recordIn p k (c, o) = none)
    (haccepts : ∀ p k, accepts p k (c, o) = false)
    (hst : st.Justified g gm s'.clock (trace ++ [(c, o)]) c)
    (hout : ∀ k, Reveals P k (c, o) → gm.Out s'.clock k)
    (hpending : ∀ k, (standing c).Pending k → st.Pending k)
    (htells : TellsRecorded P g trace (c, o)) :
    Timely P g gm s' (Function.update standing c st) (trace ++ [(c, o)]) where
  game := by
    obtain ⟨players, hg, hentries⟩ := h.game
    refine ⟨players, hgame.trans hg, fun p data hdata => ?_⟩
    simpa only [recordOf_snoc, hrecord, Option.none_or] using hentries p data hdata
  each := h.each_update hclock _ hst
  out := h.out_snoc hclock hout
  pending := h.pending_update hclock haccepts fun k hk => .inl (hpending k hk)
  once p k := by simpa [List.countP_append, haccepts] using h.once p k
  recorded := by
    refine throughout_snoc.mpr ⟨h.recorded, ?_⟩
    intro user answerIndex questionIndex answerTime correct heq
    have hnone := hrecord user questionIndex.toNat
    rw [show o = _ from heq] at hnone
    simp [recordIn] at hnone
  before := by
    refine throughout_snoc.mpr ⟨h.before, ?_⟩
    intro p k _ haccept
    rw [haccepts] at haccept
    cases haccept
  told := throughout_snoc.mpr ⟨h.told, htells⟩

theorem accepts_checkAnswer {p : LoggedUser} {answerIndex k k' : UInt32}
    {times : UInt32 × UInt32} (h : accepts p k'
      (c, .called ⟨.game (.checkAnswer g answerIndex k), .ok times⟩) = true) : c = p ∧ k = k' := by
  simpa [accepts, Except.isOk, Except.toBool] using h

/-- A check passes. -/
theorem accept (h : Timely P g gm s standing trace) (hgame : s'.game? g = s.game? g)
    (hclock : s.clock ≤ s'.clock) (hcount : gm.questions.length < 2 ^ 32)
    (hst : standing c = .asked c) {answerIndex k : UInt32} {times : UInt32 × UInt32}
    (haccepts : gm.Accepts s'.clock answerIndex k times.1 times.2) :
    Timely P g gm s' (Function.update standing c (.checked c answerIndex k times))
      (trace ++ [(c, .called ⟨.game (.checkAnswer g answerIndex k), .ok times⟩)]) := by
  have hrelease : times.1 = Game.releaseOf gm.timePerQuestion k := haccepts.release_eq
  have hbefore : s'.clock < gm.releasedAt (Game.releaseOf gm.timePerQuestion k) :=
    hrelease ▸ haccepts.lt_releasedAt
  -- an answer of the player that was accepted earlier would be pending or released
  have hfirst : trace.countP (accepts c k) = 0 := by
    refine Nat.eq_zero_of_not_pos fun hpos => ?_
    rcases h.pending c k hpos with hpending | hle
    · rw [hst] at hpending
      exact hpending
    · exact absurd (hle.trans hclock) (not_le.mpr hbefore)
  refine ⟨?_, h.each_update hclock _ ⟨rfl, hrelease, by simp⟩,
    h.out_snoc hclock fun _ => False.elim, fun p k' hpos => ?_, fun p k' => ?_,
    throughout_snoc.mpr ⟨h.recorded, ?_⟩, throughout_snoc.mpr ⟨h.before, ?_⟩,
    throughout_snoc.mpr ⟨h.told, tellsRecorded_called⟩⟩
  · obtain ⟨players, hg, hentries⟩ := h.game
    refine ⟨players, hgame.trans hg, fun p data hdata => ?_⟩
    simpa only [recordOf_snoc, recordIn, Option.none_or] using hentries p data hdata
  · by_cases hnew : accepts p k' (c, .called ⟨.game (.checkAnswer g answerIndex k), .ok times⟩)
    · obtain ⟨rfl, rfl⟩ := accepts_checkAnswer hnew
      exact .inl (by rw [Function.update_self]; rfl)
    · have hold : 0 < trace.countP (accepts p k') := by
        simpa [List.countP_append, hnew] using hpos
      refine (h.pending p k' hold).imp (fun hpending => ?_) fun hle => hle.trans hclock
      by_cases hpc : p = c
      · subst hpc
        rw [hst] at hpending
        exact hpending.elim
      · rwa [Function.update_of_ne hpc]
  · by_cases hnew : accepts p k' (c, .called ⟨.game (.checkAnswer g answerIndex k), .ok times⟩)
    · obtain ⟨rfl, rfl⟩ := accepts_checkAnswer hnew
      simp [List.countP_append, hfirst, hnew]
    · simpa [List.countP_append, hnew] using h.once p k'
  · intro user answer k' time correct heq
    exact nomatch heq
  · intro p k' hk haccept e' he' hreveals
    obtain ⟨rfl, rfl⟩ := accepts_checkAnswer haccept
    rcases (h.out e' he' k hreveals).mono hclock with hle | hfinished
    · exact absurd hle (not_le.mpr hbefore)
    · rw [haccepts.not_finished hk hcount] at hfinished
      cases hfinished

theorem modify_mapIdx {α β : Type} (l : List α) (f : ℕ → α → β) (k : ℕ) (m : β → β) :
    (l.mapIdx f).modify k m = l.mapIdx fun i a => if k = i then m (f i a) else f i a := by
  refine List.ext_getElem? fun i => ?_
  rw [List.getElem?_modify, List.getElem?_mapIdx, List.getElem?_mapIdx]
  by_cases hki : k = i <;> simp [hki, Function.comp_def]

/-- An answer is recorded. -/
theorem record (h : Timely P g gm s standing trace) {answerIndex k : UInt32}
    {times : UInt32 × UInt32} (hst : standing c = .slept c answerIndex k times)
    {players : Std.TreeMap LoggedUser GameData} {data : GameData} {correct : UInt32}
    (hg : s.game? g = some (gm.setPlayers players)) (hdata : players[c]? = some data) :
    Timely P g gm (s.setGame g (gm.setPlayers (players.insert c
        (data.submitAnswer answerIndex k.toNat times.2))))
      (Function.update standing c (.recorded k correct))
      (trace ++ [(c, .called ⟨.game (.recordAnswer g c answerIndex k times.2), correct⟩)]) := by
  obtain ⟨-, hrelease, hmem, hout⟩ : (AnswerStanding.slept c answerIndex k times).Justified g gm
    s.clock trace c := hst ▸ h.each c
  have hreleased : gm.releasedAt (Game.releaseOf gm.timePerQuestion k) ≤ s.clock := hrelease ▸ hout
  have huuid : (gm.setPlayers players).uuid = g := game?_uuid hg
  refine ⟨?_, h.each_update le_rfl _ ⟨hreleased, _, _, lastOf_self ..⟩,
    h.out_snoc le_rfl fun k' hk' => ?_,
    h.pending_update le_rfl (fun _ _ => rfl) fun k' hk' => ?_, fun p k' => ?_,
    throughout_snoc.mpr ⟨h.recorded, ?_⟩, throughout_snoc.mpr ⟨h.before, ?_⟩,
    throughout_snoc.mpr ⟨h.told, tellsRecorded_called⟩⟩
  · obtain ⟨players', hg', hentries⟩ := h.game
    have hplayers : players = players' :=
      congrArg Game.players (Option.some.inj (hg.symm.trans hg'))
    subst hplayers
    refine ⟨_, game?_setGame hg huuid, fun p data' hdata' => ?_⟩
    rw [Std.TreeMap.getElem?_insert] at hdata'
    split_ifs at hdata' with hp
    · obtain rfl : c = p := Std.LawfulEqCmp.eq_of_compare hp
      cases hdata'
      rw [GameData.submitAnswer, hentries c data hdata, modify_mapIdx]
      refine congrArg (gm.questions.mapIdx ·) (funext fun i => funext fun question => ?_)
      rw [recordOf_snoc]
      by_cases hi : k.toNat = i <;> simp [recordIn, hi]
    · rw [hentries p data' hdata']
      have hne : c ≠ p := fun heq => hp (heq ▸ Std.ReflCmp.compare_self)
      refine congrArg (gm.questions.mapIdx ·) (funext fun i => funext fun question => ?_)
      rw [recordOf_snoc]
      simp [recordIn, hne]
  · obtain rfl : k = k' := hk'
    exact .inl hreleased
  · rw [hst] at hk'
    obtain rfl : k = k' := hk'
    exact .inr hreleased
  · simpa [List.countP_append, accepts] using h.once p k'
  · intro user answer k' time correct' heq
    cases heq
    exact ⟨rfl, times.1, hmem⟩
  · intro p k' _ haccept
    cases haccept

theorem browse (h : Timely P g gm s standing trace) {o : Op} {r : o.Answer} (ho : o.Browses g)
    (hst : ¬ (standing c).Done) (hs : (machine d).Step o s r s') :
    Timely P g gm s' (Function.update standing c ((standing c).observe (.called ⟨o, r⟩)))
      (trace ++ [(c, .called ⟨o, r⟩)]) := by
  obtain ⟨hgame, hclock⟩ := ho.step hs
  have hkept : (standing c).observe (.called ⟨o, r⟩) = standing c :=
    (AnswerStanding.neutralAt_of_browses (P := P) hst ho).2 r
  rw [hkept]
  refine h.other hgame hclock (fun p k => ?_) (fun p k => ?_)
    ((h.each c).mono hclock (.inr hst)) (fun k hk => ?_) (fun _ => id)
    tellsRecorded_called
  all_goals
    cases o with
    | game o =>
        cases o with
        | getCurrentQuestion | getPlayersResults | getOnlinePlayers =>
            first | rfl | exact hk.elim
        | _ => exact ho.elim
    | _ => first | rfl | exact hk.elim

theorem called (h : Timely P g gm s standing trace) (hcount : gm.questions.length < 2 ^ 32) {o : Op}
    {r : o.Answer} (hallowed : (answerDiscipline P g).allowed (standing c) o)
    (hs : (machine d).Step o s r s') :
    Timely P g gm s' (Function.update standing c ((standing c).observe (.called ⟨o, r⟩)))
      (trace ++ [(c, .called ⟨o, r⟩)]) := by
  cases o with
  | login | room | database | external => exact h.browse hallowed.1 hallowed.2 hs
  | game o =>
      have hclock := (GameOp.frame hs).2
      obtain ⟨players, hplayers, hentries⟩ := h.game
      have hkeeps := hs
      obtain ⟨choice, -, hx⟩ := hs
      cases o with
      | isFinished id =>
          obtain ⟨rfl, user, hst⟩ := hallowed
          have huser : user = c := by simpa [hst, AnswerStanding.Justified] using h.each c
          obtain ⟨rfl, gm', hg, hr⟩ := readGame_ok hx
          obtain rfl : gm.setPlayers players = gm' := Option.some.inj (hplayers.symm.trans hg)
          have hnot : ∀ k, (standing c).Pending k → False := fun k hk => by
            rw [hst] at hk
            exact hk
          obtain rfl : gm.isFinished (GameOp.tick choice s).clock = r := Except.ok.inj hr
          rw [hst]
          cases hfinished : gm.isFinished (GameOp.tick choice s).clock with
          | true =>
              exact h.other rfl hclock (fun _ _ => rfl) (fun _ _ => rfl) hfinished
                (fun _ _ => .inr hfinished) (fun k hk => (hnot k hk).elim) tellsRecorded_called
          | false =>
              exact h.other rfl hclock (fun _ _ => rfl) (fun _ _ => rfl) huser nofun
                (fun k hk => (hnot k hk).elim) tellsRecorded_called
      | checkAnswer id answerIndex k =>
          obtain ⟨rfl, user, hst⟩ := hallowed
          have huser : user = c := by simpa [hst, AnswerStanding.Justified] using h.each c
          obtain ⟨rfl, gm', hg, hr⟩ := readGame_ok hx
          obtain rfl : gm.setPlayers players = gm' := Option.some.inj (hplayers.symm.trans hg)
          subst huser
          rw [hst]
          match r with
          | .error e =>
              refine h.other rfl hclock (fun _ _ => rfl) (fun p k' => ?_) rfl (fun _ => False.elim)
                (fun k' hk' => ?_) tellsRecorded_called
              · simp [accepts, Except.isOk, Except.toBool]
              · rw [hst] at hk'
                exact hk'.elim
          | .ok times =>
              have hgame : (GameOp.tick choice s).game? id = s.game? id := rfl
              have hcheck : gm.checkAnswer (GameOp.tick choice s).clock answerIndex k =
                .ok (.ok times) := hr
              exact h.accept hgame hclock hcount hst (Game.checkAnswer_accepts hcheck)
      | sleepUntilReleased id release =>
          obtain ⟨rfl, user, answerIndex, k, answerTime, hst⟩ := hallowed
          have hjust := h.each c
          rw [hst] at hjust
          obtain ⟨huser, hrelease, hmem⟩ := hjust
          obtain ⟨hgame, hout⟩ := sleepUntilReleased_out hplayers hx
          rw [hst]
          refine h.other hgame hclock (fun _ _ => rfl) (fun _ _ => rfl)
            ⟨huser, hrelease, List.mem_append_left _ hmem, hout⟩ (fun _ => False.elim)
            (fun k' hk' => ?_) tellsRecorded_called
          rw [hst] at hk'
          exact hk'
      | recordAnswer id user answerIndex k answerTime =>
          obtain ⟨rfl, release, hst⟩ := hallowed
          have huser : user = c := by
            have hjust := h.each c
            rw [hst] at hjust
            exact hjust.1
          subst huser
          obtain ⟨gm', gm'', hg, hr, rfl⟩ := writeGame_ok hx
          obtain rfl : gm.setPlayers players = gm' := Option.some.inj (hplayers.symm.trans hg)
          obtain ⟨data, question, hdata, -, -, -, rfl⟩ := Game.recordAnswer_ok hr
          rw [hst]
          exact h.record hst hg hdata
      | _ => exact h.browse hallowed.1 hallowed.2 hkeeps

end Timely

/-! ## Runs -/

section Runs

variable {questions : List Question} {players : List LoggedUser} {time : UInt32} {start : ℕ}

abbrev PlayerConfig : Type :=
  Config operations Managers LoggedUser Unit (LoggedUser × RequestInfo) RequestResult

/-- The clients are the players, each with its own requests. -/
def OwnCalls (_ : PlayerConfig) : Service.Label LoggedUser (LoggedUser × RequestInfo) Unit → Prop
  | .receive c call => call.1 = c
  | _ => True

instance {cfg : PlayerConfig} :
    DecidablePred fun l : Service.Label LoggedUser (LoggedUser × RequestInfo) Unit =>
      OwnCalls cfg l
  | .receive .. => inferInstanceAs (Decidable (_ = _))
  | .connect _ | .perform _ | .finish .. => .isTrue trivial

/-- Whatever is accepted for a question is checked before the answer is out, it is one answer of
a player at most, an answer is told only behind the record of the call that tells it, and the
entries of the game hold just what was accepted and recorded. -/
structure AnswersInTime (P : Platform) (g : String) (questions : List Question) (time : UInt32)
    (cfg : PlayerConfig) : Prop where
  before : Throughout (AcceptsBefore P questions) cfg.trace
  once : ∀ p k, cfg.trace.countP (accepts p k) ≤ 1
  recorded : Throughout (RecordsAccepted g) cfg.trace
  told : Throughout (TellsRecorded P g) cfg.trace
  entries : ∃ gm, cfg.shared.game? g = some gm ∧
    ∀ (p : LoggedUser) data, gm.players[p]? = some data →
    data.answers = questions.mapIdx fun k question =>
      (question, (recordOf p k cfg.trace).getD (5, time))

theorem timely_of_run (hcount : questions.length < 2 ^ 32)
    (hg : s.game? g = some (.new questions players g time start)) {cfg : PlayerConfig}
    (hrun : Service.Reachable (playerCalls P g) (machine d) OwnCalls (Service.start s) cfg) :
    Timely P g (.new questions players g time start) cfg.shared
      (fun c => (answerDiscipline P g).standing c cfg.trace) cfg.trace := by
  refine ((playerCalls_obey P g).reachable (I := fun s trace =>
    Timely P g (.new questions players g time start) s
      (fun c => (answerDiscipline P g).standing c trace) trace) ?_ ?_ ?_ hrun
    ⟨.start hg ?_, fun _ => rfl⟩).1
  · rintro cfg c _ call h _ hown hidle
    rw [Discipline.standing_snoc, show (answerDiscipline P g).standing c cfg.trace = _ from hidle]
    refine h.other rfl le_rfl (fun _ _ => rfl) (fun _ _ => rfl) hown (fun _ => False.elim)
      (fun k hk => ?_) (fun _ _ _ _ heq => nomatch heq)
    rw [show (answerDiscipline P g).standing c cfg.trace = _ from hidle] at hk
    exact hk.elim
  · intro cfg c _ _ o next r s' h hc _ hallowed hs
    rw [Discipline.standing_snoc]
    exact ⟨trivial, h.called hcount hallowed hs⟩
  · rintro s trace c _ call result o h ⟨hends, -⟩
    rw [Discipline.standing_snoc, answerDiscipline_observe, AnswerStanding.observe_finished]
    have hjust := h.each c
    refine h.other rfl le_rfl (fun _ _ => rfl) (fun _ _ => rfl) trivial (fun k hk => ?_)
      (fun k hk => hends.not_pending k hk) ?_
    · rcases hk with hresults | ⟨hquestion, hanswer⟩
      · rw [hends.over_of_results hresults] at hjust
        exact .inr hjust
      · obtain ⟨correct, hcorrect⟩ := Option.ne_none_iff_exists'.mp hanswer
        obtain ⟨k', hst, hquestion'⟩ := hends.recorded_of_answer hcorrect
        obtain rfl : k' = k := Option.some.inj (hquestion'.symm.trans hquestion)
        rw [hst] at hjust
        exact .inl hjust.1
    · rintro _ _ _ correct heq hcorrect
      cases heq
      obtain ⟨k, hst, hquestion⟩ := hends.recorded_of_answer hcorrect
      rw [hst] at hjust
      obtain ⟨-, answerIndex, answerTime, hlast⟩ := hjust
      exact ⟨k, answerIndex, answerTime, hquestion, hlast⟩
  · intro p data hdata
    rw [Game.new_players] at hdata
    split_ifs at hdata
    cases hdata
    refine List.ext_getElem? fun k => ?_
    simp [GameData.new, Game.new, List.getElem?_mapIdx]

/-- In every run of the players' requests, whatever the readings of the clock. -/
theorem answersInTime_of_run (hcount : questions.length < 2 ^ 32)
    (hg : s.game? g = some (.new questions players g time start)) {cfg : PlayerConfig}
    (hrun : Service.Reachable (playerCalls P g) (machine d) OwnCalls (Service.start s) cfg) :
    AnswersInTime P g questions time cfg := by
  have h := timely_of_run hcount hg hrun
  obtain ⟨players', hgame, hentries⟩ := h.game
  exact ⟨h.before, h.once, h.recorded, h.told, _, hgame, hentries⟩

end Runs

/-- The answer that the end of a request tells. -/
def answerTold (e : PlayerEvent) : Option UInt32 :=
  match e.2 with
  | .finished _ _ result _ => answerOf result
  | _ => none

/-- `ann` and `bob` answer the first question, `bob` after `ann`'s check and before the release,
and are told the answer; `ann` asks again during the second question, and is told nothing. -/
theorem answersInTime_interleaved : ∃ cfg : PlayerConfig,
    AnswersInTime lobbyPlatform "g" sampleGame.questions 5 cfg ∧
      cfg.trace.countP (accepts ⟨"ann"⟩ 0) = 1 ∧ cfg.trace.countP (accepts ⟨"bob"⟩ 0) = 1 ∧
      cfg.trace.filterMap answerTold = [0, 0] := by
  have hrun : ((Service.replayIf (playerCalls lobbyPlatform "g") interpreter (Op.admits true)
      (fun play _ => play.label)
      (fun cfg l => decide (OwnCalls cfg l))
      ([.connect ⟨"ann"⟩, .connect ⟨"bob"⟩,
        .receive ⟨"ann"⟩ (⟨"ann"⟩, lobbyRequest .submitAnswerRequest 6),
        .receive ⟨"bob"⟩ (⟨"bob"⟩, lobbyRequest .submitAnswerRequest 6)] ++
        List.replicate 2 (.perform ⟨"ann"⟩ usual) ++ List.replicate 4 (.perform ⟨"bob"⟩ usual) ++
        List.replicate 2 (.perform ⟨"ann"⟩ usual) ++
        [.finish ⟨"ann"⟩ (), .finish ⟨"bob"⟩ (),
          .receive ⟨"ann"⟩ (⟨"ann"⟩, lobbyRequest .submitAnswerRequest 6),
          .perform ⟨"ann"⟩ { delay := 6000000000 }, .perform ⟨"ann"⟩ usual, .finish ⟨"ann"⟩ ()])
      (Service.start { database := sampleDatabase, games := [sampleGame] })).any fun cfg =>
        cfg.trace.countP (accepts ⟨"ann"⟩ 0) = 1 && cfg.trace.countP (accepts ⟨"bob"⟩ 0) = 1 &&
          cfg.trace.filterMap answerTold = [0, 0])
      = true := by
    decide +kernel
  obtain ⟨cfg, hcfg, hcount⟩ := (Option.any_eq_true _ _).mp hrun
  have hreachable := Service.reachable_of_replayIf (K := OwnCalls)
    (fun _ _ h => of_decide_eq_true h) hcfg
  have hgame : Managers.game? { database := sampleDatabase, games := [sampleGame] } "g" =
    some sampleGame := rfl
  simp only [Bool.and_eq_true, decide_eq_true_eq] at hcount
  obtain ⟨⟨hann, hbob⟩, htold⟩ := hcount
  exact ⟨cfg, answersInTime_of_run (by decide) hgame hreachable, hann, hbob, htold⟩

end TriviaServer
