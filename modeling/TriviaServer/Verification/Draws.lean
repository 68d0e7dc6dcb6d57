import TriviaServer.Verification.QuestionSupply

/-! # The questions of a game

Whatever the other connections do while a game is created, it asks what its admin's
connection has drawn from the pool, each question once and with its own answers. -/

namespace TriviaServer

open Interaction
open Program (Only)

variable {P : Platform} {d : Bool} {s s' : Managers}

/-- A question made from a stored one. -/
def Question.BuiltFrom (row : QuestionDb) (q : Question) : Prop :=
  ∃ shuffled : List String, shuffled.Perm row.answers ∧ q = .ofDb row shuffled

/-- The questions are made from stored ones of the pool, none of which is taken twice. -/
def Drawn (pool : List QuestionDb) (questions : List Question) : Prop :=
  ∃ rows : List QuestionDb, rows.Subperm pool ∧ List.Forall₂ Question.BuiltFrom rows questions

/-! ## The discipline -/

/-- The rows that a call has drawn, or those drawn before. -/
def drawnAfter (rows : List QuestionDb) : Event operations → List QuestionDb
  | ⟨.database (.getRandomQuestions _), some rows'⟩ => rows'
  | _ => rows

/-- A connection stands at the rows that it has drawn last, and creates games from these. -/
def drawing : Discipline operations Session RequestInfo RequestResult (List QuestionDb) where
  initial := []
  observe rows
    | .called e => drawnAfter rows e
    | _ => rows
  allowed rows
    | .game (.pushGame questions ..) => List.Forall₂ Question.BuiltFrom rows questions
    | _ => True
  assumed _
    | ⟨.external (.shuffle answers), shuffled⟩ => shuffled.Perm answers
    | _ => True
  mayFinish _ _ _ _ := True

/-- Every operation but the creation of a game. -/
def Op.CreatesNoGame : Op → Prop
  | .game (.pushGame ..) => False
  | _ => True

theorem Op.CreatesNoGame.allowed {o : Op} (ho : o.CreatesNoGame) (rows : List QuestionDb) :
    drawing.allowed rows o := by
  cases o with
  | game o =>
      cases o with
      | pushGame => exact ho.elim
      | _ => trivial
  | _ => trivial

theorem wp_createsNoGame {α : Type} {p : Action α} (hp : p.Only Op.CreatesNoGame)
    {rows : List QuestionDb} {Q : List (Event operations) → α → List QuestionDb → Prop}
    (h : ∀ t a rows', Q t a rows') : wp drawing.machine (fun _ => False) p Q rows := by
  induction p generalizing rows Q with
  | pure a => exact h [] a rows
  | perform o next ih =>
      refine ⟨fun _ hf => hf (hp.1.allowed rows), ?_⟩
      rintro r _ ⟨-, rfl⟩
      exact ih r (hp.2 r) fun _ _ _ => h _ _ _

theorem createsNoGame_of_reads {α : Type} {p : Action α}
    (hp : p.Only (Op.Reads fun _ => True)) : p.Only Op.CreatesNoGame := by
  refine hp.mono fun o ho => ?_
  cases o with
  | game o => exact ho.elim
  | _ => trivial

/-- Only admins create games. -/
theorem Handler.MayCall.createsNoGame {h : Handler} {o : Op} (ho : h.MayCall P o)
    (hh : ∀ room user, h ≠ .roomAdmin room user) : o.CreatesNoGame := by
  cases o with
  | game o =>
      cases o with
      | pushGame questions players uuid time =>
          obtain ⟨⟨user, hadmin⟩, -⟩ := ho
          exact absurd hadmin (hh uuid user)
      | _ => trivial
  | _ => trivial

theorem drawing_neutral {o : Op} (ho : o.CreatesNoGame)
    (hdraw : ∀ amount, o ≠ .database (.getRandomQuestions amount)) : drawing.Neutral o := by
  refine fun rows => ⟨ho.allowed rows, fun r => ?_⟩
  cases o with
  | database o =>
      cases o with
      | getRandomQuestions amount => exact absurd rfl (hdraw amount)
      | _ => rfl
  | _ => rfl

/-! ## The creation of a game -/

section Creation

variable {rows : List QuestionDb}

theorem wp_pickQuestions_drawn {amount : UInt32}
    {Q : List (Event operations) → Result (List QuestionDb) → List QuestionDb → Prop}
    (herror : ∀ t e rows', Q t (.error e) rows') (hdrawn : ∀ t rows', Q t (.ok rows') rows') :
    wp drawing.machine (fun _ => False) (SqliteDatabase.pickQuestions amount) Q rows := by
  unfold SqliteDatabase.pickQuestions
  rw [wp_bind]
  refine Discipline.wp_call (D := drawing) trivial fun r _ => ?_
  cases r with
  | none => exact herror _ _ _
  | some questions =>
      dsimp only
      split_ifs
      · exact herror _ _ _
      · exact hdrawn _ _

theorem wp_getQuestions_drawn {amount : UInt32}
    {Q : List (Event operations) → Result (List QuestionDb) → List QuestionDb → Prop}
    (herror : ∀ t e rows', Q t (.error e) rows') (hdrawn : ∀ t rows', Q t (.ok rows') rows') :
    wp drawing.machine (fun _ => False) (SqliteDatabase.getQuestions amount) Q rows := by
  unfold SqliteDatabase.getQuestions
  rw [wp_bind]
  apply wp_createsNoGame (createsNoGame_of_reads SqliteDatabase.getQuestionsCount_reads)
  intro _ count rows'
  cases count with
  | error e => exact herror _ _ _
  | ok questionsCount =>
      dsimp only
      split_ifs
      · exact wp_pickQuestions_drawn (fun _ => herror _) fun _ => hdrawn _
      · rw [wp_bind]
        apply wp_createsNoGame (p := Action.external _) (Program.only_call trivial)
        intro _ fetched rows'
        cases fetched with
        | error e => exact herror _ _ _
        | ok questions =>
            rw [wp_bind]
            apply wp_createsNoGame (createsNoGame_of_reads (SqliteDatabase.addQuestions_reads _))
            intro _ _ rows'
            exact wp_pickQuestions_drawn (fun _ => herror _) fun _ => hdrawn _

theorem wp_toQuestions_drawn (questions : List QuestionDb)
    {Q : List (Event operations) → List Question → List QuestionDb → Prop}
    (h : ∀ t qs, List.Forall₂ Question.BuiltFrom questions qs → Q t qs rows) :
    wp drawing.machine (fun _ => False) (GameManager.toQuestions questions) Q rows := by
  induction questions generalizing Q with
  | nil => exact h [] [] .nil
  | cons question rest ih =>
      unfold GameManager.toQuestions
      rw [wp_bind]
      refine Discipline.wp_call (D := drawing) trivial fun shuffled hperm => ?_
      rw [wp_bind]
      exact ih fun _ qs hqs => h _ _ (.cons ⟨shuffled, hperm, rfl⟩ hqs)

theorem wp_createGame_drawn (room : String)
    {Q : List (Event operations) → Result String → List QuestionDb → Prop}
    (h : ∀ t r rows', Q t r rows') :
    wp drawing.machine (fun _ => False) (GameManager.createGame room) Q rows := by
  have hroom : ∀ o : RoomOp, (Action.room o).Only drawing.Neutral := fun o =>
    Program.only_call (S := operations) (drawing_neutral trivial fun _ => by simp)
  unfold GameManager.createGame
  rw [wp_bind]
  apply Discipline.wp_neutral (hroom _).then_true
  intro _ metadata _
  rw [wp_bind]
  apply wp_getQuestions_drawn
  · exact fun _ _ _ => h _ _ _
  intro _ questionsDb
  rw [wp_bind]
  apply Discipline.wp_neutral (hroom _).then_true
  intro _ metadata _
  split_ifs
  · exact h _ _ _
  rw [wp_bind]
  apply wp_toQuestions_drawn
  intro _ questions hquestions
  rw [wp_bind]
  apply Discipline.wp_neutral (hroom _).then_true
  intro _ players _
  rw [wp_bind]
  apply Discipline.wp_neutral (hroom _).then_true
  intro _ metadata _
  rw [wp_bind]
  refine Discipline.wp_call (D := drawing) hquestions fun _ _ => ?_
  exact h _ _ _

end Creation

/-! ## Requests -/

namespace RoomAdminRequestHandler

variable (room : String) (user : LoggedUser)

theorem closeRoom_createsNoGame : (closeRoom room user).Only Op.CreatesNoGame :=
  ⟨trivial, fun _ => ⟨trivial, fun _ => trivial⟩⟩

theorem getRoomState_createsNoGame : (getRoomState room user).Only Op.CreatesNoGame := by
  refine ⟨trivial, fun metadata => ⟨trivial, fun roomState => ⟨trivial, fun users => ?_⟩⟩⟩
  apply (createsNoGame_of_reads (UsersManager.transformLoggedUsersToPlayers_reads users)).bind
  intro players
  cases players with
  | error e => trivial
  | ok players =>
      cases roomState with
      | none => exact ⟨trivial, fun r => Empty.elim r⟩
      | some roomState => trivial

theorem wp_handleRequest_drawn (request : RequestInfo) {rows : List QuestionDb}
    {Q : List (Event operations) → RequestResult → List QuestionDb → Prop}
    (h : ∀ t r rows', Q t r rows') :
    wp drawing.machine (fun _ => False) (handleRequest room user request) Q rows := by
  unfold handleRequest
  split_ifs
  · exact h _ _ _
  · split
    · exact wp_createsNoGame (closeRoom_createsNoGame room user) h
    · unfold startGame
      rw [wp_bind]
      apply wp_createsNoGame (p := Action.room (.getAllUsers room)) (Program.only_call trivial)
      intro _ users rows'
      split_ifs
      · exact h _ _ _
      · rw [wp_bind]
        apply wp_createGame_drawn
        intro _ game rows'
        cases game with
        | error e => exact h _ _ _
        | ok game =>
            rw [wp_bind]
            exact wp_createsNoGame (p := Action.room (.setIsActive room true))
              (Program.only_call trivial) fun _ _ _ => h _ _ _
    · exact wp_createsNoGame (getRoomState_createsNoGame room user) h
    · exact wp_createsNoGame (Only.bind (p := LoginManager.logout user.username)
        ⟨trivial, fun _ => trivial⟩ fun _ => closeRoom_createsNoGame room user) h
    · exact h _ _ _

end RoomAdminRequestHandler

theorem Handler.wp_handleRequest_drawn (h : Handler) (request : RequestInfo)
    {rows : List QuestionDb} {Q : List (Event operations) → RequestResult → List QuestionDb → Prop}
    (hQ : ∀ t r rows', Q t r rows') :
    wp drawing.machine (fun _ => False) (h.handleRequest P request) Q rows := by
  cases h with
  | login =>
      exact wp_createsNoGame ((LoginRequestHandler.mayCall_handleRequest request).mono
        fun _ ho => ho.createsNoGame (by simp)) hQ
  | verification tries email code username =>
      exact wp_createsNoGame ((VerificationRequestHandler.mayCall_handleRequest tries email code
        username request).mono fun _ ho => ho.createsNoGame (by simp)) hQ
  | menu user =>
      exact wp_createsNoGame ((MenuRequestHandler.mayCall_handleRequest user request).mono
        fun _ ho => ho.createsNoGame (by simp)) hQ
  | roomMember roomUuid roomName user =>
      exact wp_createsNoGame ((RoomMemberRequestHandler.mayCall_handleRequest (P := P) roomUuid
        roomName user request).mono fun _ ho => ho.createsNoGame (by simp)) hQ
  | roomAdmin room user =>
      exact RoomAdminRequestHandler.wp_handleRequest_drawn room user request hQ
  | game game user =>
      exact wp_createsNoGame ((GameRequestHandler.mayCall_handleRequest game user request).mono
        fun _ ho => ho.createsNoGame (by simp)) hQ

theorem handleClient_draws (P : Platform) :
    drawing.ObeyedBy (handleClient P) (fun _ _ => True) fun _ => True where
  start := trivial
  serve session request _ _ _ :=
    session.handler.wp_handleRequest_drawn request fun _ a _ =>
      ⟨trivial, fun sent => by
        cases (handleClient P).next request a sent <;> trivial⟩

/-! ## Runs -/

/-- What every connection has drawn last is in the pool, and so are the rows of every game. -/
structure Supplied (s : Managers) (trace : List (ℕ × ServerObservation)) : Prop where
  drawn : ∀ c, (drawing.standing c trace).Subperm s.database.questions
  games : ∀ gm ∈ s.games, Drawn s.database.questions gm.questions

theorem writeGame_questions {α : Type} {g : String} {f : Game → Except Fault (α × Game)} {a : α}
    (hx : GameOp.writeGame s g f = .ok (a, s'))
    (hf : ∀ gm gm', f gm = .ok (a, gm') → gm'.questions = gm.questions) {gm : Game}
    (hgm : gm ∈ s'.games) : ∃ gm₀ ∈ s.games, gm.questions = gm₀.questions := by
  obtain ⟨gm₁, gm', hgm₁, hwrite, rfl⟩ := writeGame_ok hx
  obtain ⟨gm₀, hgm₀, rfl⟩ := List.mem_map.mp hgm
  split_ifs
  · exact ⟨gm₁, List.mem_of_find?_eq_some hgm₁, hf _ _ hwrite⟩
  · exact ⟨gm₀, hgm₀, rfl⟩

theorem updatePlayer_questions {gm gm' : Game} {user : LoggedUser} {f : GameData → GameData}
    {r : Unit} (h : (gm.updatePlayer user f).map ((), ·) = .ok (r, gm')) :
    gm'.questions = gm.questions := by
  obtain ⟨data, -, rfl⟩ := updatePlayer_ok h
  rfl

/-- The questions of a game are those of an earlier one, or those it has been created with. -/
theorem Op.games_questions {o : Op} {r : o.Answer} (hs : (machine d).Step o s r s') {gm : Game}
    (hgm : gm ∈ s'.games) : (∃ gm₀ ∈ s.games, gm.questions = gm₀.questions) ∨
      ∃ players uuid time, o = .game (.pushGame gm.questions players uuid time) := by
  have hsame : s'.games = s.games → ∃ gm₀ ∈ s.games, gm.questions = gm₀.questions :=
    fun hgames => ⟨gm, hgames ▸ hgm, rfl⟩
  cases o with
  | game o =>
      obtain ⟨c, -, hx⟩ := hs
      cases o with
      | pushGame questions players uuid time =>
          cases hx
          rcases List.mem_append.mp hgm with hgm | hgm
          · exact .inl ⟨gm, hgm, rfl⟩
          · cases List.mem_singleton.mp hgm
            exact .inr ⟨players, uuid, time, rfl⟩
      | getGameById id =>
          simp only [Op.exec, GameOp.exec] at hx
          split_ifs at hx
          cases hx
          exact .inl (hsame rfl)
      | isFinished g => exact .inl (hsame (by rw [readGame_eq hx]; rfl))
      | getCurrentQuestion g => exact .inl (hsame (by rw [readGame_eq hx]; rfl))
      | checkAnswer g answerIndex questionIndex =>
          exact .inl (hsame (by rw [readGame_eq hx]; rfl))
      | getPlayersResults g => exact .inl (hsame (by rw [readGame_eq hx]))
      | getOnlinePlayers g => exact .inl (hsame (by rw [readGame_eq hx]))
      | submitting g user data =>
          cases hx
          exact .inl (hsame rfl)
      | sleepUntilReleased g time =>
          obtain ⟨k, -, rfl⟩ := sleepUntilReleased_eq hx
          exact .inl (hsame rfl)
      | eraseGame g =>
          simp only [Op.exec, GameOp.exec] at hx
          split_ifs at hx
          cases hx
          exact .inl ⟨gm, List.mem_of_mem_eraseP hgm, rfl⟩
      | removePlayer g user =>
          refine .inl (writeGame_questions hx (fun gm gm' hf => ?_) hgm)
          cases hf
          rfl
      | punishPlayer g user =>
          exact .inl (writeGame_questions hx (fun _ _ => updatePlayer_questions) hgm)
      | markUserResultsAsSubmittedToDB g user =>
          exact .inl (writeGame_questions hx (fun _ _ => updatePlayer_questions) hgm)
      | recordAnswer g user answerIndex questionIndex answerTime =>
          refine .inl (writeGame_questions hx (fun gm gm' hf => ?_) hgm)
          obtain ⟨data, question, -, -, -, -, rfl⟩ := Game.recordAnswer_ok hf
          rfl
  | _ =>
      cases Op.frame hs
      exact .inl (hsame rfl)

namespace Supplied

variable {trace : List (ℕ × ServerObservation)} {c : ℕ}

theorem observed (hsupplied : Supplied s trace) (hpool : s.database.questions.Sublist
    s'.database.questions) {o : ServerObservation}
    (hdrawn : (drawing.observe (drawing.standing c trace) o).Subperm s'.database.questions)
    (hgames : ∀ gm ∈ s'.games, Drawn s'.database.questions gm.questions) :
    Supplied s' (trace ++ [(c, o)]) where
  drawn c' := by
    by_cases hc : c' = c
    · subst hc
      rwa [drawing.standing_self]
    · rw [drawing.standing_other hc]
      exact (hsupplied.drawn c').trans hpool.subperm
  games := hgames

theorem same (hsupplied : Supplied s trace) {o : ServerObservation}
    (hsame : drawing.observe (drawing.standing c trace) o = drawing.standing c trace) :
    Supplied s (trace ++ [(c, o)]) :=
  hsupplied.observed (.refl _) (by rw [hsame]; exact hsupplied.drawn c) hsupplied.games

/-- What a call of the database has drawn is in the pool. -/
theorem drawnAfter_subperm (hsupplied : Supplied s trace) {o : Op} {r : o.Answer}
    (hs : (machine d).Step o s r s') :
    (drawnAfter (drawing.standing c trace) ⟨o, r⟩).Subperm s'.database.questions := by
  have hbefore := (hsupplied.drawn c).trans (Op.pool_sublist hs).subperm
  cases o with
  | database o =>
      cases o with
      | getRandomQuestions amount =>
          obtain ⟨c, db, -, hx, rfl⟩ := DbOp.step_eq hs
          rcases DbOp.exec_cases hx with ⟨-, rfl, -⟩ | ⟨-, happly⟩
          · exact hbefore
          · cases happly
            have hperm : (if c.questions.isPerm s.database.questions then c.questions
                else s.database.questions).Perm s.database.questions := by
              split_ifs with h
              · exact List.isPerm_iff.mp h
              · exact .refl _
            exact (List.take_sublist _ _).subperm.trans hperm.subperm
      | _ => exact hbefore
  | _ => exact hbefore

theorem called (hsupplied : Supplied s trace) {o : Op} {r : o.Answer}
    (ho : drawing.allowed (drawing.standing c trace) o) (hs : (machine d).Step o s r s') :
    Supplied s' (trace ++ [(c, .called ⟨o, r⟩)]) := by
  refine hsupplied.observed (Op.pool_sublist hs) (hsupplied.drawnAfter_subperm hs) ?_
  intro gm hgm
  have hpool := (Op.pool_sublist hs).subperm
  rcases Op.games_questions hs hgm with ⟨gm₀, hgm₀, hsame⟩ | ⟨players, uuid, time, rfl⟩
  · obtain ⟨rows, hrows, hbuilt⟩ := hsupplied.games gm₀ hgm₀
    exact ⟨rows, hrows.trans hpool, hsame ▸ hbuilt⟩
  · exact ⟨drawing.standing c trace, (hsupplied.drawn c).trans hpool, ho⟩

end Supplied

theorem drawing_assumed {o : Op} {r : o.Answer} (hs : (machine d).Step o s r s')
    (rows : List QuestionDb) : drawing.assumed rows ⟨o, r⟩ := by
  cases o with
  | external o =>
      cases o with
      | shuffle answers =>
          obtain ⟨c, -, hx⟩ := hs
          cases hx
          simp only [drawing]
          split_ifs with hperm
          · exact List.isPerm_iff.mp hperm
          · exact .refl _
      | _ => trivial
  | _ => trivial

/-- In every run each game asks questions of the pool, none of them twice. -/
theorem games_drawn {cfg : ServerConfig} (hrun : InterleavedRun P d cfg) {gm : Game}
    (hgm : gm ∈ cfg.shared.games) : Drawn cfg.shared.database.questions gm.questions := by
  obtain ⟨database, hrun⟩ := hrun
  have hrun' := (handleClient_draws P).reachable (I := Supplied) ?_ ?_ ?_ hrun
    ⟨⟨fun c => List.nil_subperm, by simp [ServerConfig.init, Service.start, Managers.init]⟩,
      fun c => rfl⟩
  · exact hrun'.1.games gm hgm
  · intro cfg c session request hsupplied _ _ _
    exact hsupplied.same rfl
  · intro cfg c session request o next r s' hsupplied _ _ ho hs
    exact ⟨drawing_assumed hs _, hsupplied.called ho hs⟩
  · intro s trace c session request r sent hsupplied _
    exact hsupplied.same rfl

theorem games_drawn_first : ∃ (cfg : ServerConfig) (gm : Game),
    gm ∈ cfg.shared.games ∧ Drawn cfg.shared.database.questions gm.questions := by
  obtain ⟨cfg, cfg', -, gm, hreplay, -, -, -, hgm⟩ := replay_gameBegun
  obtain ⟨⟨database, hcfg⟩, hstep⟩ := replayCall_step hreplay
  exact ⟨cfg', gm, hgm, games_drawn ⟨database, hcfg.tail ⟨_, trivial, hstep⟩⟩ hgm⟩

end TriviaServer
