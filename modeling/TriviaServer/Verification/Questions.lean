import TriviaServer.Verification.Departure
import TriviaServer.Verification.Reading
import TriviaServer.Verification.Replays

/-! # The question index

GET_QUESTION and SUBMIT_ANSWER first ask whether the game is finished and then read the clock
again to find the current question. Both use the index they compute as it is. -/

namespace TriviaServer

open Interaction

/-! ## Games that are played -/

namespace Game

/-- The games that a new one becomes through its own operations. -/
inductive Played : Game → Prop
  | new (questions players uuid timePerQuestion now) :
      Played (.new questions players uuid timePerQuestion now)
  | recordAnswer {g g' user answerIndex questionIndex answerTime answer} : Played g →
      g.recordAnswer user answerIndex questionIndex answerTime = .ok (answer, g') → Played g'
  | removePlayer {g} (user) : Played g → Played (g.removePlayer user)
  | punishPlayer {g g' user} : Played g → g.punishPlayer user = .ok g' → Played g'
  | markUserResultsAsSubmittedToDB {g g' user} : Played g →
      g.markUserResultsAsSubmittedToDB user = .ok g' → Played g'

/-- Every player has one answer for each question. -/
def Shaped (g : Game) : Prop :=
  ∀ (user : LoggedUser) data, g.players[user]? = some data →
    data.answers.length = g.questions.length

theorem shaped_update {g : Game} {user : LoggedUser} {data : GameData} (hg : g.Shaped)
    (hdata : data.answers.length = g.questions.length) :
    Shaped { g with players := g.players.insert user data } := by
  intro user' data' h
  rw [Std.TreeMap.getElem?_insert] at h
  split_ifs at h
  · cases h
    exact hdata
  · exact hg user' data' h

theorem updatePlayer_shaped {g g' : Game} {user : LoggedUser} {f : GameData → GameData}
    (hg : g.Shaped) (h : g.updatePlayer user f = .ok g')
    (hf : ∀ data, (f data).answers = data.answers) : g'.Shaped := by
  unfold updatePlayer at h
  split at h
  · cases h
  · next data hdata =>
      cases h
      exact shaped_update hg (by rw [hf]; exact hg user data hdata)

/-- A recorded answer changes one entry of its player's data. -/
theorem recordAnswer_ok {g g' : Game} {user : LoggedUser}
    {answerIndex questionIndex answerTime answer : UInt32}
    (h : g.recordAnswer user answerIndex questionIndex answerTime = .ok (answer, g')) :
    ∃ data question, g.players[user]? = some data ∧
      g.questions[questionIndex.toNat]? = some question ∧ answer = question.correctAnswerIndex ∧
      questionIndex.toNat < data.answers.length ∧
      g' = { g with
        players := g.players.insert user
          (data.submitAnswer answerIndex questionIndex.toNat answerTime) } := by
  unfold recordAnswer at h
  split at h
  · cases h
  · next data hdata =>
      split_ifs at h with hlt
      split at h <;> cases h
      next question hquestion => exact ⟨data, question, hdata, hquestion, rfl, hlt, rfl⟩

theorem recordAnswer_shaped {g g' : Game} {user : LoggedUser}
    {answerIndex questionIndex answerTime answer : UInt32} (hg : g.Shaped)
    (h : g.recordAnswer user answerIndex questionIndex answerTime = .ok (answer, g')) :
    g'.Shaped := by
  obtain ⟨data, question, hdata, -, -, -, rfl⟩ := recordAnswer_ok h
  refine shaped_update hg ?_
  rw [GameData.submitAnswer, List.length_modify]
  exact hg user data hdata

theorem Played.shaped {g : Game} (h : Played g) : g.Shaped := by
  induction h with
  | new questions players uuid timePerQuestion now =>
      intro user data hdata
      rw [new_players] at hdata
      split_ifs at hdata
      cases hdata
      simp [GameData.new, Game.new]
  | recordAnswer _ h ih => exact recordAnswer_shaped ih h
  | removePlayer user _ ih => exact ih
  | punishPlayer _ h ih => exact updatePlayer_shaped ih h fun _ => rfl
  | markUserResultsAsSubmittedToDB _ h ih => exact updatePlayer_shaped ih h fun _ => rfl

/-! ## The index -/

/-- The number of the question at some time, in the 32 bits it is stored in. -/
def questionIndexAt (g : Game) (now : ℕ) : ℕ :=
  g.timeSinceGameStart now / (g.timePerQuestion + 5).toNat % 2 ^ 32

/-- The time belongs to one of the questions, when the times of 2³² questions are a full turn. -/
def InQuestionTime (g : Game) (now : ℕ) : Prop :=
  g.timeSinceGameStart now % ((g.timePerQuestion + 5).toNat * 2 ^ 32) <
    g.questions.length * (g.timePerQuestion + 5).toNat

instance (g : Game) (now : ℕ) : Decidable (g.InQuestionTime now) := Nat.decLt _ _

theorem toNat_time (g : Game) :
    (g.timePerQuestion + 5).toNat = (g.timePerQuestion.toNat + 5) % 2 ^ 32 := by
  rw [UInt32.toNat_add]
  rfl

theorem time_pos {g : Game} (h0 : g.timePerQuestion + 5 ≠ 0) :
    0 < (g.timePerQuestion + 5).toNat :=
  Nat.pos_of_ne_zero fun h => h0 (UInt32.toNat_inj.mp h)

theorem inQuestionTime_iff {g : Game} {now : ℕ} (h0 : g.timePerQuestion + 5 ≠ 0) :
    g.InQuestionTime now ↔ g.questionIndexAt now < g.questions.length := by
  have hpos := time_pos h0
  rw [InQuestionTime, questionIndexAt, ← Nat.mod_mul_right_div_self, Nat.div_lt_iff_lt_mul hpos]

/-- A game whose time for each question wraps to zero is finished from the start. -/
theorem time_ne_zero {g : Game} {now : ℕ} (h : g.isFinished now = false) :
    g.timePerQuestion + 5 ≠ 0 := by
  intro h0
  simp [isFinished, h0] at h

/-- The product of two 32-bit numbers fits in the 64 bits it is computed in. -/
theorem isFinished_iff {g : Game} {now : ℕ} (hcount : g.questions.length < 2 ^ 32) :
    g.isFinished now = true ↔
      g.questions.length * (g.timePerQuestion + 5).toNat ≤ g.timeSinceGameStart now := by
  have hlt : g.questions.length * (g.timePerQuestion + 5).toNat < 2 ^ 64 := by
    have htime := (g.timePerQuestion + 5).toNat_lt
    calc g.questions.length * (g.timePerQuestion + 5).toNat
        ≤ 2 ^ 32 * (g.timePerQuestion + 5).toNat := Nat.mul_le_mul_right _ hcount.le
      _ < 2 ^ 32 * 2 ^ 32 := Nat.mul_lt_mul_of_pos_left htime (by decide)
      _ = 2 ^ 64 := by decide
  rw [isFinished, decide_eq_true_iff, UInt64.toNat_mul, UInt64.toNat_ofNat',
    UInt32.toNat_toUInt64, Nat.mod_mul_mod, Nat.mod_eq_of_lt hlt]

/-- The release time of a question, in 32 bits. -/
theorem toNat_releaseTime (g : Game) (questionIndex : UInt32) :
    ((questionIndex + 1) * (g.timePerQuestion + 5) - 5).toNat = (2 ^ 32 - 5 +
      (questionIndex.toNat * (g.timePerQuestion + 5).toNat + (g.timePerQuestion + 5).toNat) %
        2 ^ 32) % 2 ^ 32 := by
  rw [UInt32.toNat_sub, UInt32.toNat_mul, UInt32.toNat_add, Nat.mod_mul_mod, Nat.add_mul]
  simp

theorem getCurrentQuestion_error {g : Game} {now : ℕ} (h0 : g.timePerQuestion + 5 ≠ 0) :
    g.getCurrentQuestion now = .error .questionIndex ↔
      g.questions.length ≤ g.questionIndexAt now := by
  have hindex := UInt32.toNat_ofNat' (n := g.timeSinceGameStart now / (g.timePerQuestion + 5).toNat)
  simp only [getCurrentQuestion, currentQuestionIndex, h0, if_false, questionIndexAt, ← hindex]
  simp only [bind, Except.bind, ← List.getElem?_eq_none_iff]
  cases g.questions[(UInt32.ofNat (g.timeSinceGameStart now /
    (g.timePerQuestion + 5).toNat)).toNat]? with
  | none => simp [throw, throwThe, MonadExceptOf.throw]
  | some question => simp [pure, Except.pure]

/-- What the check establishes of an answer that passes it. -/
structure Accepts (g : Game) (now : ℕ) (answerIndex questionIndex : UInt32)
    (currQuestionReleaseTime answerTime : UInt32) : Prop where
  time_ne_zero : g.timePerQuestion + 5 ≠ 0
  answer_le : answerIndex ≤ 4
  question_eq :
    questionIndex = UInt32.ofNat (g.timeSinceGameStart now / (g.timePerQuestion + 5).toNat)
  release_eq : currQuestionReleaseTime = (questionIndex + 1) * (g.timePerQuestion + 5) - 5
  before_release : g.timeSinceGameStart now < currQuestionReleaseTime.toNat
  answerTime_eq : answerTime = UInt32.ofInt (g.timePerQuestion.toNat -
    ((currQuestionReleaseTime.toNat : ℤ) - g.timeSinceGameStart now))

theorem checkAnswer_error {g : Game} {now : ℕ} {answerIndex questionIndex : UInt32} {e : Fault}
    (h : g.checkAnswer now answerIndex questionIndex = .error e) : e = .undefinedArithmetic := by
  unfold checkAnswer currentQuestionIndex at h
  by_cases h0 : g.timePerQuestion + 5 = 0
  · simp only [h0, if_true, bind, Except.bind] at h
    exact (Except.error.inj h).symm
  · simp only [h0, if_false, bind, Except.bind, pure, Except.pure, ne_eq, ite_not] at h
    split_ifs at h

theorem checkAnswer_accepts {g : Game} {now : ℕ} {answerIndex questionIndex : UInt32}
    {times : UInt32 × UInt32}
    (h : g.checkAnswer now answerIndex questionIndex = .ok (.ok times)) :
    g.Accepts now answerIndex questionIndex times.1 times.2 := by
  unfold checkAnswer currentQuestionIndex at h
  by_cases h0 : g.timePerQuestion + 5 = 0
  · simp [h0, bind, Except.bind] at h
  · simp only [h0, if_false, bind, Except.bind, pure, Except.pure, ne_eq, ite_not] at h
    split_ifs at h with hanswer hquestion hrelease
    · cases h
    · cases h
    · cases h
      exact ⟨h0, UInt32.not_lt.mp hanswer, hquestion, by rw [hquestion], not_le.mp hrelease, rfl⟩
    · cases h

/-- The time of an answer that passes the check fits in 32 bits, and so does the index. -/
theorem Accepts.questionIndex_eq_div {g : Game} {now : ℕ}
    {answerIndex questionIndex currQuestionReleaseTime answerTime : UInt32}
    (h : g.Accepts now answerIndex questionIndex currQuestionReleaseTime answerTime) :
    questionIndex.toNat = g.timeSinceGameStart now / (g.timePerQuestion + 5).toNat := by
  rw [h.question_eq, UInt32.toNat_ofNat_of_lt']
  exact (Nat.div_le_self _ _).trans_lt (h.before_release.trans currQuestionReleaseTime.toNat_lt)

/-- An answer that passes the check is for the current question. -/
theorem Accepts.questionIndexAt {g : Game} {now : ℕ} {answerIndex questionIndex : UInt32}
    {currQuestionReleaseTime answerTime : UInt32}
    (h : g.Accepts now answerIndex questionIndex currQuestionReleaseTime answerTime) :
    questionIndex.toNat = g.questionIndexAt now := by
  rw [h.question_eq]
  exact UInt32.toNat_ofNat'

theorem recordAnswer_inRange {g : Game} (hg : g.Shaped) {user : LoggedUser}
    {answerIndex questionIndex answerTime : UInt32}
    (hindex : questionIndex.toNat < g.questions.length) :
    g.recordAnswer user answerIndex questionIndex answerTime ≠ .error .questionIndex := by
  unfold recordAnswer
  cases hdata : g.players[user]? with
  | none => simp
  | some data =>
      simp [hg user data hdata, hindex]

end Game

/-! ## The two requests -/

/-- How a program of the server ends when the environment decides on these outcomes in turn. -/
def outcomeOf {α : Type} (p : Action α) (outcomes : List Choice) (s : Managers) :
    Option (Except Fault α) :=
  interpreter.outcome (Op.admits false) p outcomes s

/-- The first two outcomes, which decide on the two readings of the clock, let neither request
use an index past the end, whatever the client sends. -/
def IndexesInRange (P : Platform) (g : String) (user : LoggedUser) (s : Managers)
    (first second : Choice) : Prop :=
  ∀ rest, outcomeOf (GameRequestHandler.getQuestion g user) (first :: second :: rest) s ≠
      some (.error .questionIndex) ∧
    ∀ request, outcomeOf (GameRequestHandler.submitAnswer P g user request)
      (first :: second :: rest) s ≠ some (.error .questionIndex)

@[simp] theorem outcomeOf_pure {α : Type} (a : α) (cs : List Choice) (s : Managers) :
    outcomeOf (pure a) cs s = some (.ok a) := by
  cases cs <;> rfl

theorem outcomeOf_nil {α : Type} (o : GameOp) (f : o.Answer → Action α) (s : Managers) :
    outcomeOf (Action.game o >>= f) [] s = none := rfl

theorem outcomeOf_throw {α β : Type} (fault : Fault) (f : α → Action β) (c : Choice)
    (cs : List Choice) (s : Managers) :
    outcomeOf (Action.throw fault >>= f) (c :: cs) s = some (.error fault) := rfl

theorem outcomeOf_game {α : Type} (o : GameOp) (f : o.Answer → Action α) (c : Choice)
    (cs : List Choice) (s : Managers) :
    outcomeOf (Action.game o >>= f) (c :: cs) s =
      match o.exec c s with
      | .error e => some (.error e)
      | .ok (r, s') => outcomeOf (f r) cs s' := by
  have hexec : interpreter.exec (.game o) c s = o.exec c s := rfl
  rw [outcomeOf, Action.game, Program.call_bind, Interpreter.outcome, hexec]
  cases o.exec c s <;> rfl

/-- A call that reads the game, with what it reads. -/
theorem outcomeOf_readGame {α : Type} {o : GameOp} {f : o.Answer → Action α} {c : Choice}
    {cs : List Choice} {s s' : Managers} {g : String} {gm : Game}
    {read : Game → Except Fault o.Answer} (hg : s'.game? g = some gm)
    (ho : o.exec c s = GameOp.readGame s' g read) :
    outcomeOf (Action.game o >>= f) (c :: cs) s =
      match read gm with
      | .error e => some (.error e)
      | .ok r => outcomeOf (f r) cs s' := by
  have hfind : s'.games.find? (·.uuid = g) = some gm := hg
  rw [outcomeOf_game, ho, GameOp.readGame, hfind]
  dsimp only
  cases read gm <;> rfl

theorem outcomeOf_sleep {α : Type} {f : Unit → Action α} {c : Choice} {cs : List Choice}
    {s : Managers} {g : String} {gm : Game} {time : UInt32} (hg : s.game? g = some gm) :
    outcomeOf (Action.game (.sleepUntilReleased g time) >>= f) (c :: cs) s =
      outcomeOf (f ()) cs (s.setClock (max s.clock (gm.releasedAt time) + c.delay)) := by
  have hfind : s.games.find? (·.uuid = g) = some gm := hg
  rw [outcomeOf_game, GameOp.exec, GameOp.readGame, hfind]
  rfl

/-- Nothing more can go wrong behind the record. -/
theorem outcomeOf_recordAnswer {α : Type} {f : UInt32 → Action α} {c : Choice}
    {cs : List Choice} {s : Managers} {g : String} {gm : Game} {user : LoggedUser}
    {answerIndex questionIndex time : UInt32} (hg : s.game? g = some gm) :
    outcomeOf (Action.game (.recordAnswer g user answerIndex questionIndex time) >>= f)
      (c :: cs) s =
      match gm.recordAnswer user answerIndex questionIndex time with
      | .error e => some (.error e)
      | .ok (answer, gm') => outcomeOf (f answer) cs (s.setGame g gm') := by
  have hfind : s.games.find? (·.uuid = g) = some gm := hg
  rw [outcomeOf_game, GameOp.exec, GameOp.writeGame, hfind]
  dsimp only
  cases gm.recordAnswer user answerIndex questionIndex time <;> rfl

section Requests

variable {P : Platform} {g : String} {user : LoggedUser} {s : Managers} {gm : Game}
variable (hg : s.game? g = some gm) {c₁ c₂ : Choice} {rest : List Choice}

include hg

theorem getQuestion_outcome : outcomeOf (GameRequestHandler.getQuestion g user)
      (c₁ :: c₂ :: rest) s = some (.error .questionIndex) ↔
    gm.isFinished (s.clock + c₁.delay) = false ∧
      gm.questions.length ≤ gm.questionIndexAt (s.clock + c₁.delay + c₂.delay) := by
  have hg₁ : (GameOp.tick c₁ s).game? g = some gm := hg
  have hg₂ : (GameOp.tick c₂ (GameOp.tick c₁ s)).game? g = some gm := hg
  unfold GameRequestHandler.getQuestion
  rw [outcomeOf_readGame hg₁ rfl]
  cases hfinished : gm.isFinished (s.clock + c₁.delay) with
  | true => simp [GameOp.tick, hfinished]
  | false =>
      rw [← Game.getCurrentQuestion_error (Game.time_ne_zero hfinished)]
      simp only [GameOp.tick, hfinished, Bool.false_eq_true, if_false, true_and]
      rw [outcomeOf_readGame hg₂ rfl]
      simp only [GameOp.tick]
      cases gm.getCurrentQuestion (s.clock + c₁.delay + c₂.delay) with
      | error e => simp
      | ok question => simp

/-- An answer that is checked in time is recorded under an index of the game. -/
theorem submitAnswer_outcome (hshaped : gm.Shaped) {answerIndex questionIndex : UInt32}
    (hindex : gm.questionIndexAt (s.clock + c₁.delay) < gm.questions.length) :
    outcomeOf (submitAnswer g user answerIndex questionIndex) (c₁ :: rest) s ≠
      some (.error .questionIndex) := by
  have hg₁ : (GameOp.tick c₁ s).game? g = some gm := hg
  unfold submitAnswer
  rw [outcomeOf_readGame hg₁ rfl]
  cases hcheck : gm.checkAnswer (GameOp.tick c₁ s).clock answerIndex questionIndex with
  | error e => simp [Game.checkAnswer_error hcheck]
  | ok answer =>
      rcases answer with e | ⟨release, time⟩
      · simp
      · have haccepts := Game.checkAnswer_accepts hcheck
        have hquestion : questionIndex.toNat < gm.questions.length :=
          haccepts.questionIndexAt ▸ hindex
        dsimp only
        rcases rest with _ | ⟨c₂, rest⟩
        · rw [outcomeOf_nil]
          nofun
        · rw [outcomeOf_sleep hg₁]
          generalize max (GameOp.tick c₁ s).clock (gm.releasedAt release) + c₂.delay = now
          have hg₂ : ((GameOp.tick c₁ s).setClock now).game? g = some gm := hg
          rcases rest with _ | ⟨c₃, rest⟩
          · rw [outcomeOf_nil]
            nofun
          · rw [outcomeOf_recordAnswer hg₂]
            cases hrecord : gm.recordAnswer user answerIndex questionIndex time with
            | error e =>
                intro h
                cases h
                exact Game.recordAnswer_inRange hshaped hquestion hrecord
            | ok answer => simp

theorem submitAnswerRequest_outcome (hshaped : gm.Shaped) {request : RequestInfo}
    (h : gm.isFinished (s.clock + c₁.delay) = true ∨
      gm.questionIndexAt (s.clock + c₁.delay + c₂.delay) < gm.questions.length) :
    outcomeOf (GameRequestHandler.submitAnswer P g user request) (c₁ :: c₂ :: rest) s ≠
      some (.error .questionIndex) := by
  have hg₁ : (GameOp.tick c₁ s).game? g = some gm := hg
  have hparse := ensures_submitAnswerRequest (E := (· = .jsonType)) rfl (P.parse request.buffer)
  unfold GameRequestHandler.submitAnswer
  cases hrequest : JsonDeserializer.deserializeSubmitAnswerRequest (P.parse request.buffer) with
  | error e =>
      rw [hrequest] at hparse
      cases hparse
      rw [Action.lift, outcomeOf_throw]
      nofun
  | ok parsed =>
      rw [Action.lift, pure_bind]
      rcases parsed with e | ⟨answerId, questionId⟩
      · simp
      · dsimp only
        rw [outcomeOf_readGame hg₁ rfl]
        rcases h with hfinished | hindex
        · simp [GameOp.tick, hfinished]
        · cases gm.isFinished (GameOp.tick c₁ s).clock with
          | true => simp
          | false =>
              simp only [Bool.false_eq_true, if_false]
              refine Interpreter.outcome_bind_ne
                (submitAnswer_outcome (s := GameOp.tick c₁ s) hg hshaped hindex) fun res cs s' => ?_
              cases res with
              | error e =>
                  exact ne_of_eq_of_ne (outcomeOf_pure _ cs s') nofun
              | ok correctAnswer => exact ne_of_eq_of_ne (outcomeOf_pure _ cs s') nofun

/-- Both requests stay in range exactly if the first reading finds the game finished or the
second one falls into the time of a question. -/
theorem indexesInRange_iff (hplayed : gm.Played) :
    IndexesInRange P g user s c₁ c₂ ↔ gm.isFinished (s.clock + c₁.delay) = true ∨
      gm.InQuestionTime (s.clock + c₁.delay + c₂.delay) := by
  have hindex : IndexesInRange P g user s c₁ c₂ ↔ gm.isFinished (s.clock + c₁.delay) = true ∨
      gm.questionIndexAt (s.clock + c₁.delay + c₂.delay) < gm.questions.length := by
    have hquestion : ∀ rest, outcomeOf (GameRequestHandler.getQuestion g user)
        (c₁ :: c₂ :: rest) s ≠ some (.error .questionIndex) ↔ _ := fun rest =>
      not_congr (getQuestion_outcome hg)
    simp only [not_and_or, Bool.not_eq_false, not_le] at hquestion
    constructor
    · intro h
      exact (hquestion []).mp (h []).1
    · intro h rest
      refine ⟨(hquestion rest).mpr h, fun request => ?_⟩
      exact submitAnswerRequest_outcome hg hplayed.shaped h
  rw [hindex]
  cases hfinished : gm.isFinished (s.clock + c₁.delay) with
  | true => simp
  | false => rw [Game.inQuestionTime_iff (Game.time_ne_zero hfinished)]

end Requests

/-- Two questions of five seconds each, started at time 0. -/
def sampleGame : Game :=
  .new [⟨"q0", ["a", "b", "c", "d"], 0⟩, ⟨"q1", ["a", "b", "c", "d"], 0⟩] [⟨"ann"⟩, ⟨"bob"⟩] "g" 5 0

/-- In the middle of the first question both readings see the same one. -/
theorem indexesInRange_firstQuestion :
    IndexesInRange samplePlatform "g" ⟨"ann"⟩
      { database := .empty, games := [sampleGame] } { delay := 2000000000 }
      { delay := 1000000000 } :=
  (indexesInRange_iff rfl (.new ..)).mpr (.inr (by decide))

/-- The game ends, after 20 seconds, between the two readings. -/
theorem not_indexesInRange_end :
    ¬ IndexesInRange samplePlatform "g" ⟨"ann"⟩
      { database := .empty, games := [sampleGame] } { delay := 19999999999 } { delay := 1 } := by
  intro h
  exact (h []).1 rfl

end TriviaServer
