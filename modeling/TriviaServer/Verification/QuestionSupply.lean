import TriviaServer.Model.QuestionsFetcher
import TriviaServer.Verification.Authority
import TriviaServer.Verification.Deserializers
import TriviaServer.Verification.QuestionPool

/-! # Where the questions come from

The fetcher accepts the documents of one shape and turns them into questions. The constructor
of the database fills the pool, which only grows while the server runs, and every game draws
its questions from it. -/

namespace TriviaServer

open Interaction

namespace Json

/-- A value asks a question: the texts of its fields, with exactly three incorrect answers. -/
structure Asks (j : Json) (q : QuestionDb) : Prop where
  question : j.get "question" = .string q.question
  correctAnswer : j.get "correct_answer" = .string q.correctAnswer
  incorrectAnswers : j.get "incorrect_answers" =
    .array [.string q.incorrectAnswer1, .string q.incorrectAnswer2, .string q.incorrectAnswer3]
  id : q.id = 0

theorem contains_of_get {j : Json} (key : String) (h : j.get key ≠ .null) :
    j.contains key = true := by
  cases j with
  | object fields =>
      simp only [get] at h
      simp only [contains]
      cases hlookup : fields.lookup key with
      | none => simp [hlookup] at h
      | some value => rfl
  | _ => exact absurd rfl h

theorem isArray_iff {j : Json} : j.isArray = true ↔ ∃ elements, j = .array elements := by
  cases j <;> simp [isArray]

theorem Asks.unique {j : Json} {q q' : QuestionDb} (h : j.Asks q) (h' : j.Asks q') : q = q' := by
  obtain ⟨id, question, correct, a, b, c⟩ := q
  obtain ⟨id', question', correct', a', b', c'⟩ := q'
  obtain ⟨hq, hc, hi, hid⟩ := h
  obtain ⟨hq', hc', hi', hid'⟩ := h'
  simp_all

/-- A document lists these questions, in order. -/
def Lists (j : Json) (raws : List QuestionDb) : Prop :=
  ∃ elements, j.get "results" = .array elements ∧ List.Forall₂ Asks elements raws

end Json

/-- The same question with all its texts changed. -/
def QuestionDb.mapTexts (f : String → String) (q : QuestionDb) : QuestionDb where
  id := q.id
  question := f q.question
  correctAnswer := f q.correctAnswer
  incorrectAnswer1 := f q.incorrectAnswer1
  incorrectAnswer2 := f q.incorrectAnswer2
  incorrectAnswer3 := f q.incorrectAnswer3

namespace QuestionsFetcher

variable {P : Platform} {H : HttpLibrary}

theorem deserializeQuestion_of_asks {j : Json} {q : QuestionDb} (h : j.Asks q) :
    deserializeQuestion H j = .ok (.ok (q.mapTexts H.decodeUrl)) := by
  have hq := j.contains_of_get "question" (by simp [h.question])
  have hc := j.contains_of_get "correct_answer" (by simp [h.correctAnswer])
  have hi := j.contains_of_get "incorrect_answers" (by simp [h.incorrectAnswers])
  simp [deserializeQuestion, hq, hc, hi, h.question, h.correctAnswer, h.incorrectAnswers,
    Json.isString, Json.isArray, Json.size, Json.element, Json.elements, Json.toString,
    QuestionDb.mapTexts, h.id]
  rfl

theorem deserializeQuestion_of_not {j : Json} (h : ∀ q, ¬ j.Asks q) :
    deserializeQuestion H j = .ok (.error invalidFormat) := by
  unfold deserializeQuestion
  split_ifs with hkinds hsize htexts
  · rfl
  · rfl
  · rfl
  · -- behind the three tests the value does ask a question
    simp only [Bool.or_eq_true, Bool.not_eq_true', not_or, Bool.not_eq_false,
      Json.isString_iff, Json.isArray_iff] at hkinds htexts
    obtain ⟨⟨⟨⟨⟨-, question, hq⟩, -⟩, correct, hc⟩, -⟩, elements, hi⟩ := hkinds
    obtain ⟨⟨⟨a, ha⟩, b, hb⟩, c, hc'⟩ := htexts
    have hlength : elements.length = 3 := by simpa [hi, Json.size] using hsize
    obtain ⟨x, y, z, rfl⟩ := List.length_eq_three.mp hlength
    simp only [hi, Json.element, Json.elements] at ha hb hc'
    refine absurd ⟨hq, hc, ?_, rfl⟩ (h ⟨0, question, correct, a, b, c⟩)
    simpa [hi] using ⟨ha, hb, hc'⟩

theorem deserializeEach_of_asks {elements : List Json} {raws : List QuestionDb}
    (h : List.Forall₂ Json.Asks elements raws) :
    deserializeEach H elements = .ok (.ok (raws.map (QuestionDb.mapTexts H.decodeUrl))) := by
  induction h with
  | nil => rfl
  | cons hq _ ih =>
      simp only [deserializeEach, deserializeQuestion_of_asks hq, ih]
      rfl

theorem deserializeEach_of_not {elements : List Json}
    (h : ∀ raws, ¬ List.Forall₂ Json.Asks elements raws) :
    deserializeEach H elements = .ok (.error invalidFormat) := by
  induction elements with
  | nil => exact absurd .nil (h [])
  | cons j rest ih =>
      by_cases hj : ∃ q, j.Asks q
      · obtain ⟨q, hq⟩ := hj
        have hrest := ih fun raws hraws => h (q :: raws) (.cons hq hraws)
        simp only [deserializeEach, deserializeQuestion_of_asks hq, hrest]
        rfl
      · simp only [deserializeEach, deserializeQuestion_of_not (not_exists.mp hj)]
        rfl

theorem deserializeQuestions_of_lists {j : Json} {raws : List QuestionDb} (h : j.Lists raws) :
    deserializeQuestions H j = .ok (.ok (raws.map (QuestionDb.mapTexts H.decodeUrl))) := by
  obtain ⟨elements, hresults, hasks⟩ := h
  have hcontains := j.contains_of_get "results" (by simp [hresults])
  simp [deserializeQuestions, hcontains, hresults, Json.isArray, Json.elements,
    deserializeEach_of_asks hasks]

theorem deserializeQuestions_of_not {j : Json} (h : ∀ raws, ¬ j.Lists raws) :
    deserializeQuestions H j = .ok (.error invalidFormat) := by
  unfold deserializeQuestions
  split_ifs with hkind
  · rfl
  · simp only [Bool.or_eq_true, Bool.not_eq_true', not_or, Bool.not_eq_false,
      Json.isArray_iff] at hkind
    obtain ⟨-, elements, hresults⟩ := hkind
    rw [hresults]
    exact deserializeEach_of_not fun raws hasks => h raws ⟨elements, hresults, hasks⟩

/-- What a fetch of an amount answers, by what the service sent. -/
inductive Fetched (P : Platform) (H : HttpLibrary) (amount : UInt32) :
    Result (List QuestionDb) → Prop
  | failed : (∀ body, H.get (path amount) ≠ some (200, body)) →
      Fetched P H amount (.error ⟨"Failed to fetch questions", .httpError⟩)
  | unreadable {body} : H.get (path amount) = some (200, body) → P.parse body = none →
      Fetched P H amount (.error ⟨"Invalid JSON format", .deserializationError⟩)
  | malformed {body j} : H.get (path amount) = some (200, body) → P.parse body = some j →
      (∀ raws, ¬ j.Lists raws) →
      Fetched P H amount (.error ⟨"Invalid JSON format", .deserializationError⟩)
  | short {body j raws} : H.get (path amount) = some (200, body) → P.parse body = some j →
      j.Lists raws → raws.length ≠ amount.toNat →
      Fetched P H amount (.error ⟨"Not enough questions available", .deserializationError⟩)
  | fetched {body j raws} : H.get (path amount) = some (200, body) → P.parse body = some j →
      j.Lists raws → raws.length = amount.toNat →
      Fetched P H amount (.ok (raws.map (QuestionDb.mapTexts H.decodeUrl)))

theorem Fetched.eq {P : Platform} {H : HttpLibrary} {amount : UInt32}
    {r : Result (List QuestionDb)} (h : Fetched P H amount r) :
    fetchQuestions P H amount = .ok r := by
  unfold fetchQuestions
  cases h with
  | failed hget =>
      cases hanswer : H.get (path amount) with
      | none => rfl
      | some answer =>
          obtain ⟨status, body⟩ := answer
          have hstatus : status ≠ 200 := fun heq => hget body (heq ▸ hanswer)
          simp [hstatus]
  | unreadable hget hparse =>
      simp [hget, hparse, invalidFormat, JsonDeserializer.invalid]
  | malformed hget hparse hlists =>
      simp [hget, hparse, deserializeQuestions_of_not hlists, bind, Except.bind, pure,
        Except.pure, invalidFormat, JsonDeserializer.invalid]
  | short hget hparse hlists hlength =>
      simp [hget, hparse, deserializeQuestions_of_lists hlists, hlength, bind, Except.bind, pure,
        Except.pure, JsonDeserializer.invalid]
  | fetched hget hparse hlists hlength =>
      simp [hget, hparse, deserializeQuestions_of_lists hlists, hlength, bind, Except.bind, pure,
        Except.pure]

theorem fetched_total (P : Platform) (H : HttpLibrary) (amount : UInt32) :
    ∃ r, Fetched P H amount r := by
  by_cases hget : ∃ body, H.get (path amount) = some (200, body)
  · obtain ⟨body, hget⟩ := hget
    cases hparse : P.parse body with
    | none => exact ⟨_, .unreadable hget hparse⟩
    | some j =>
        by_cases hlists : ∃ raws, j.Lists raws
        · obtain ⟨raws, hraws⟩ := hlists
          by_cases hlength : raws.length = amount.toNat
          · exact ⟨_, .fetched hget hparse hraws hlength⟩
          · exact ⟨_, .short hget hparse hraws hlength⟩
        · exact ⟨_, .malformed hget hparse (not_exists.mp hlists)⟩
  · exact ⟨_, .failed (not_exists.mp hget)⟩

/-- The fetcher never throws, and answers by what the service sent. -/
theorem fetchQuestions_exactly (P : Platform) (H : HttpLibrary) (amount : UInt32) :
    (∀ fault, fetchQuestions P H amount ≠ .error fault) ∧
      ∀ r, fetchQuestions P H amount = .ok r ↔ Fetched P H amount r := by
  obtain ⟨r, hr⟩ := fetched_total P H amount
  have heq := hr.eq
  refine ⟨fun fault hfault => ?_, fun r' => ⟨fun hr' => ?_, Fetched.eq⟩⟩
  · rw [heq] at hfault
    cases hfault
  · rw [heq] at hr'
    cases hr'
    exact hr

/-- What is fetched is an answer that the server's model admits. -/
theorem Fetched.admitted {P : Platform} {H : HttpLibrary} {amount : UInt32}
    {r : Result (List QuestionDb)} (h : Fetched P H amount r) :
    ∃ c, ExternalOp.exec (.fetchQuestions amount) c = .ok r := by
  cases h with
  | @fetched body j raws _ _ _ hlength =>
      refine ⟨{ questions := raws.map (QuestionDb.mapTexts H.decodeUrl) }, ?_⟩
      simp [ExternalOp.exec, hlength]
  | _ => exact ⟨{ fails := true, error := _ }, rfl⟩

end QuestionsFetcher

/-! ## The pool -/

variable {P : Platform} {d : Bool} {s s' : Managers}

/-- The questions of a pool with more of them, which get the next ids. -/
def extend (pool added : List QuestionDb) : List QuestionDb :=
  pool ++ (added.zipIdx (pool.length + 1)).map fun e => { e.1 with id := e.2 }

@[simp] theorem extend_nil (pool : List QuestionDb) : extend pool [] = pool := by
  simp [extend]

theorem extend_cons (pool : List QuestionDb) (q : QuestionDb) (added : List QuestionDb) :
    extend pool (q :: added) = extend (pool ++ [{ q with id := pool.length + 1 }]) added := by
  simp [extend, List.zipIdx_cons]

@[simp] theorem length_extend (pool added : List QuestionDb) :
    (extend pool added).length = pool.length + added.length := by
  simp [extend]

/-- Only the insert of a question changes the pool. -/
theorem Op.pool_step {o : Op} {r : o.Answer} (hs : (machine d).Step o s r s') :
    s'.database.questions = s.database.questions ∨
      ∃ q, s'.database.questions = extend s.database.questions [q] := by
  cases o with
  | database o =>
      obtain ⟨c, db, -, hx, rfl⟩ := DbOp.step_eq hs
      rcases DbOp.exec_cases hx with ⟨-, -, rfl⟩ | ⟨-, happly⟩
      · exact .inl rfl
      cases o with
      | insertQuestion q =>
          cases happly
          exact .inr ⟨q, rfl⟩
      | insertUser row =>
          left
          simp only [DbOp.apply, Database.insertUser] at happly
          split_ifs at happly <;> cases happly <;> rfl
      | _ =>
          cases happly
          exact .inl rfl
  | _ =>
      cases Op.frame hs
      exact .inl rfl

theorem Op.pool_sublist {o : Op} {r : o.Answer} (hs : (machine d).Step o s r s') :
    s.database.questions.Sublist s'.database.questions := by
  rcases Op.pool_step hs with hsame | ⟨q, hq⟩
  · rw [hsame]
  · rw [hq]
    exact List.sublist_append_left _ _

theorem extend_extend (pool added added' : List QuestionDb) :
    extend (extend pool added) added' = extend pool (added ++ added') := by
  induction added generalizing pool with
  | nil => simp
  | cons q rest ih => rw [List.cons_append, extend_cons, ih, extend_cons]

/-- In every run the pool keeps its questions, and only gets more of them. -/
theorem pool_grows {K : ServerConfig → Service.Label ℕ RequestInfo Bool → Prop}
    {cfg cfg' : ServerConfig} (hrun : Service.Reachable (handleClient P) (machine d) K cfg cfg') :
    ∃ added, cfg'.shared.database.questions = extend cfg.shared.database.questions added := by
  refine hrun.invariant (I := fun cfg' => ∃ added,
    cfg'.shared.database.questions = extend cfg.shared.database.questions added)
    ⟨[], (extend_nil _).symm⟩ ?_
  rintro cfg₁ l cfg₂ ⟨added, hadded⟩ _ hstep
  cases hstep with
  | perform _ hs =>
      rcases Op.pool_step hs with hsame | ⟨q, hq⟩
      · exact ⟨added, hsame.trans hadded⟩
      · exact ⟨added ++ [q], by rw [hq, hadded, extend_extend]⟩
  | _ => exact ⟨added, hadded⟩

/-! ## The constructor -/

/-- The managers with more questions in the pool. -/
def Managers.addQuestions (s : Managers) (added : List QuestionDb) : Managers :=
  s.setDatabase { s.database with questions := extend s.database.questions added }

@[simp] theorem Managers.addQuestions_nil (s : Managers) : s.addQuestions [] = s := by
  simp only [addQuestions, extend_nil]
  rfl

theorem Managers.addQuestions_addQuestions (s : Managers) (added added' : List QuestionDb) :
    (s.addQuestions added).addQuestions added' = s.addQuestions (added ++ added') := by
  simp [addQuestions, Managers.setDatabase, extend_extend]

namespace SqliteDatabase

variable {E : Fault → Prop}

theorem wp_addQuestion {q : QuestionDb}
    {Q : List (Event operations) → Option Error → Managers → Prop}
    (hfails : d = false → ∀ t e, fetchedAmounts t = [] → Q t (some e) s)
    (hadds : ∀ t, fetchedAmounts t = [] → Q t none (s.addQuestions [q])) :
    wp (machine d) E (addQuestion q) Q s := by
  unfold addQuestion
  rw [wp_bind]
  apply wp_db
  intro c r db hc hx
  rcases DbOp.exec_cases hx with ⟨hcfails, rfl, rfl⟩ | ⟨-, happly⟩
  · exact hfails (by simpa [hcfails] using hc) _ _ rfl
  · cases happly
    exact hadds _ rfl

/-- The loop adds the questions in front of the first that fails. -/
theorem wp_addUntilError (questions : List QuestionDb) :
    wp (machine d) E (addUntilError questions) (fun t _ s' => fetchedAmounts t = [] ∧
      ∃ added, added <+: questions ∧ (d = true → added = questions) ∧
        s' = s.addQuestions added) s := by
  induction questions generalizing s with
  | nil => exact ⟨rfl, [], List.prefix_rfl, fun _ => rfl, (s.addQuestions_nil).symm⟩
  | cons q rest ih =>
      unfold addUntilError
      rw [wp_bind]
      apply wp_addQuestion
      · intro hd t e ht
        refine ⟨by simpa using ht, [], List.nil_prefix, fun htrue => ?_, by simp⟩
        rw [hd] at htrue
        cases htrue
      · intro t ht
        apply wp_imp ih
        rintro t' _ s' ⟨ht', added, hprefix, hall, rfl⟩
        refine ⟨by simp [ht, ht'], q :: added, ?_, fun hd => by rw [hall hd], ?_⟩
        · exact List.cons_prefix_cons.mpr ⟨rfl, hprefix⟩
        · rw [Managers.addQuestions_addQuestions, List.singleton_append]

/-- How the constructor leaves a pool: at most 50 questions are fetched in place of what is
missing, and if nothing fails the pool has 50 at least. -/
structure Filled (nothingFails : Bool) (pool : List QuestionDb) (t : List (Event operations))
    (added : List QuestionDb) : Prop where
  bounded : added.length ≤ 50 - pool.length
  fetched : added = [] ∨ ∃ amount fetched,
    event (.external (.fetchQuestions amount)) (.ok fetched) ∈ t ∧ added <+: fetched
  complete : nothingFails = true → ¬ FetchFailed t → added.length = 50 - pool.length

theorem wp_construct (schemaSynced : Bool) (hcount : s.database.questions.length < 2 ^ 32) :
    wp (machine d) E (construct schemaSynced) (fun t _ s' => ∃ added,
      s' = s.addQuestions added ∧ Filled (schemaSynced && d) s.database.questions t added) s := by
  have hnone : ∀ t, (schemaSynced && d) = false → Filled (schemaSynced && d)
      s.database.questions t [] := fun t hfails =>
    ⟨Nat.zero_le _, .inl rfl, fun htrue => by rw [hfails] at htrue; cases htrue⟩
  unfold construct
  split_ifs with hsynced
  · have hfalse : schemaSynced = false := by simpa using hsynced
    exact ⟨[], by simp, hnone _ (by simp [hfalse])⟩
  rw [wp_bind, getQuestionsCount, wp_bind]
  apply wp_db
  intro c r db hc hx
  rcases DbOp.exec_cases hx with ⟨hcfails, rfl, rfl⟩ | ⟨-, happly⟩
  · have hfalse : d = false := by simpa [hcfails] using hc
    exact ⟨[], by simp, hnone _ (by simp [hfalse])⟩
  cases happly
  have htoNat : (UInt32.ofNat s.database.questions.length).toNat = s.database.questions.length :=
    UInt32.toNat_ofNat_of_lt' hcount
  simp only [catchWith, Except.map, wp_pure]
  split_ifs with henough
  · -- there are enough questions
    have hle : 50 ≤ s.database.questions.length := by
      rw [UInt32.le_iff_toNat_le, htoNat] at henough
      exact henough
    exact ⟨[], by simp, by simp, .inl rfl, fun _ _ => by simp; omega⟩
  · have hlt : s.database.questions.length < 50 := by
      rw [UInt32.le_iff_toNat_le, htoNat] at henough
      exact not_le.mp henough
    have hamount : (minQuestionsCount - UInt32.ofNat s.database.questions.length).toNat =
        50 - s.database.questions.length := by
      rw [UInt32.toNat_sub_of_le, htoNat]
      · rfl
      · rw [UInt32.le_iff_toNat_le, htoNat]
        exact hlt.le
    generalize minQuestionsCount - UInt32.ofNat s.database.questions.length = amount at hamount
    rw [wp_bind, wp_external]
    intro c
    rw [ExternalOp.exec, ensures_ok]
    split_ifs with hfails
    · refine ⟨[], by simp, by simp, .inl rfl, fun _ hfetch => absurd ⟨amount, c.error, ?_⟩ hfetch⟩
      simp
    · have hsent : c.fails = false ∧ c.questions.length = amount.toNat := by simpa using hfails
      have hlength := hsent.2.trans hamount
      apply wp_imp (wp_addUntilError c.questions)
      rintro t _ s' ⟨-, added, hprefix, hall, rfl⟩
      refine ⟨added, rfl, ?_, .inr ⟨amount, c.questions, by simp, hprefix⟩, fun hd _ => ?_⟩
      · exact hlength ▸ hprefix.length_le
      · rw [Bool.and_eq_true] at hd
        rw [hall hd.2, hlength]

end SqliteDatabase

/-- The pool with the question that the constructor fetches for it. -/
def filledPool : Managers := (poolOf 49).addQuestions [⟨0, "q1", "a", "b", "c", "d"⟩]

/-- The constructor finds 49 questions and fetches one. -/
def oneFetched : List (Event operations) :=
  [ event (.database .countQuestions) (some 49)
  , event (.external (.fetchQuestions 1)) (.ok [⟨0, "q1", "a", "b", "c", "d"⟩])
  , event (.database (.insertQuestion ⟨0, "q1", "a", "b", "c", "d"⟩)) (some ()) ]

theorem exec_oneFetched : Exec (machine true) (SqliteDatabase.construct true) (poolOf 49)
    oneFetched () filledPool :=
  Interpreter.exec_of_run (show interpreter.run (Op.admits true)
    (SqliteDatabase.construct true)
    [usual, { questions := [⟨0, "q1", "a", "b", "c", "d"⟩] }, usual] (poolOf 49) =
      some (oneFetched, (), filledPool) from rfl)

/-- What the constructor does to the pool, whatever fails. -/
theorem construct_fills {schemaSynced : Bool} {t : List (Event operations)} {r : Unit}
    (hcount : s.database.questions.length < 2 ^ 32)
    (hx : Exec (machine d) (SqliteDatabase.construct schemaSynced) s t r s') :
    ∃ added, s' = s.addQuestions added ∧
      SqliteDatabase.Filled (schemaSynced && d) s.database.questions t added :=
  hx.of_wp (SqliteDatabase.wp_construct (E := fun _ => True) schemaSynced hcount)

theorem construct_fills_oneShort : ∃ added, filledPool = (poolOf 49).addQuestions added ∧
    SqliteDatabase.Filled true (poolOf 49).database.questions oneFetched added :=
  construct_fills (by decide) exec_oneFetched

/-- After a start in which nothing failed the stored count suffices for every later top-up. -/
theorem startup_suffices {database : Database} {t : List (Event operations)} {r : Unit}
    {cfg : ServerConfig}
    (hx : Exec (machine true) (SqliteDatabase.construct true) (.init database) t r s')
    (hfetch : ¬ FetchFailed t)
    (hrun : Service.Reachable (handleClient P) (machine d) (fun _ _ => True)
      (ServerConfig.init s'.database) cfg)
    (hfits : cfg.shared.database.questions.length < 2 ^ 32) (amount : UInt32) :
    CountSuffices amount cfg.shared.database.questions.length := by
  obtain ⟨added', hadded'⟩ := pool_grows hrun
  have hcount : (Managers.init database).database.questions.length < 2 ^ 32 := by
    have hconstructed := hx.keeps (R := fun s s' =>
      s.database.questions.Sublist s'.database.questions) (fun _ => .refl _)
      (fun _ _ _ => .trans) (fun _ _ _ _ => Op.pool_sublist)
    calc (Managers.init database).database.questions.length
      _ ≤ s'.database.questions.length := hconstructed.length_le
      _ ≤ cfg.shared.database.questions.length := by
          rw [hadded', length_extend]
          exact Nat.le_add_right ..
      _ < 2 ^ 32 := hfits
  obtain ⟨added, rfl, hfilled⟩ := hx.of_wp
    (SqliteDatabase.wp_construct (s := .init database) (E := fun _ => True) true hcount)
  have hstart : cfg.shared.database.questions.length =
      database.questions.length + added.length + added'.length := by
    rw [hadded', length_extend]
    exact congrArg (· + added'.length) (length_extend database.questions added)
  have hlength := hfilled.complete rfl hfetch
  have hpool : (Managers.init database).database.questions.length = database.questions.length :=
    rfl
  rw [hpool] at hlength
  exact ⟨by omega, .inl hfits⟩

/-- Rooms of 31 questions are created with an empty body. -/
def quizPlatform : Platform :=
  { lobbyPlatform with
    parse := fun buffer =>
      if buffer = [] then
        some (.object [("name", .string "quiz"), ("maxPlayers", .numberUnsigned 4),
          ("questionCount", .numberUnsigned 31), ("timePerQuestion", .numberUnsigned 5)])
      else lobbyPlatform.parse buffer }

/-- `ann` starts a game of 31 questions with `bob`, up to the moment when a question is added. -/
def annTopsUp : List ServerPlay :=
  [.connect 0, .receive 0 (lobbyRequest .loginRequest 0)] ++ calls 0 [usual, usual, usual] ++
  [.finish 0 true, .receive 0 ⟨.createRoomRequest, []⟩] ++ calls 0 [{ text := "room" }, usual] ++
  [.finish 0 true, .connect 1, .receive 1 (lobbyRequest .loginRequest 1)] ++
  calls 1 [usual, usual, usual] ++ [.finish 1 true, .receive 1 (lobbyRequest .joinRoomRequest 5)] ++
  calls 1 [usual, usual, usual] ++ [.finish 1 true, .receive 0 ⟨.startGameRequest, []⟩] ++
  calls 0 [usual, usual, usual, { questions := [⟨0, "q2", "a", "b", "c", "d"⟩] }, usual]

theorem startup_suffices_oneShort : ∃ cfg : ServerConfig,
    Service.Reachable (handleClient quizPlatform) (machine true) (fun _ _ => True)
      (ServerConfig.init filledPool.database) cfg ∧
    filledPool.database.questions.length < cfg.shared.database.questions.length ∧
    CountSuffices 31 cfg.shared.database.questions.length := by
  have hrun : ((replayServer quizPlatform true filledPool.database annTopsUp).any fun cfg =>
      filledPool.database.questions.length < cfg.shared.database.questions.length &&
      cfg.shared.database.questions.length < 2 ^ 32) = true := by decide +kernel
  obtain ⟨cfg, hreplay, hcheck⟩ := (Option.any_eq_true _ _).mp hrun
  rw [Bool.and_eq_true] at hcheck
  have hreach := reachable_of_replay hreplay (K := fun _ _ => True) fun _ _ _ => trivial
  exact ⟨cfg, hreach, of_decide_eq_true hcheck.1, startup_suffices exec_oneFetched
    (by simp [FetchFailed, oneFetched, event]) hreach (of_decide_eq_true hcheck.2) 31⟩

end TriviaServer
