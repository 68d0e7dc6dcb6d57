import Mathlib.Data.List.Perm.Subperm
import TriviaServer.Verification.Reading
import TriviaServer.Verification.Replays

/-! # Topping up the question pool

`getQuestions` wants 20 questions more than it is asked for, and fetches what is missing. It
subtracts the 20 from the stored count, in unsigned arithmetic. -/

namespace TriviaServer

open Interaction

/-- The amounts that the fetcher is asked for. -/
def fetchedAmounts (t : List (Event operations)) : List UInt32 :=
  t.filterMap fun e =>
    match e.1 with
    | .external (.fetchQuestions amount) => some amount
    | _ => none

@[simp] theorem fetchedAmounts_append (t t' : List (Event operations)) :
    fetchedAmounts (t ++ t') = fetchedAmounts t ++ fetchedAmounts t' :=
  List.filterMap_append

/-- A call of the fetcher returned an error. -/
def FetchFailed (t : List (Event operations)) : Prop :=
  ∃ amount e, event (.external (.fetchQuestions amount)) (.error e) ∈ t

/-- A call of the database, and not of the fetcher. -/
def Op.IsDatabase : Op → Prop
  | .database _ => True
  | _ => False

theorem fetchedAmounts_of_database {t : List (Event operations)}
    (h : ∀ e ∈ t, e.1.IsDatabase) : fetchedAmounts t = [] := by
  rw [fetchedAmounts, List.filterMap_eq_nil_iff]
  rintro ⟨o, r⟩ he
  have ho : o.IsDatabase := h _ he
  cases o with
  | database o => rfl
  | _ => exact ho.elim

/-- If there are enough questions in the pool, the amount is drawn from them. -/
def Draws (amount : UInt32) (r : Result (List QuestionDb)) (pool : List QuestionDb) : Prop :=
  amount.toNat ≤ pool.length →
    ∃ questions, r = .ok questions ∧ questions.length = amount.toNat ∧ questions.Subperm pool

/-- What `getQuestions` is for: the pool is asked to grow exactly if it has fewer than 20
questions more than the amount, by what is missing, and then the amount is drawn from it. -/
structure ToppedUp (amount : UInt32) (s : Managers) (t : List (Event operations))
    (r : Result (List QuestionDb)) (s' : Managers) : Prop where
  fetches : (fetchedAmounts t).map UInt32.toNat =
    if s.database.questions.length < amount.toNat + 20 then
      [amount.toNat + 20 - s.database.questions.length]
    else []
  draws : ¬ FetchFailed t → Draws amount r s'.database.questions

/-- The stored count has at least the 20 questions that are subtracted from it, and is an
`unsigned int` or looks large enough as one. -/
def CountSuffices (amount : UInt32) (count : ℕ) : Prop :=
  20 ≤ count ∧
    (count < 2 ^ 32 ∨ count % 2 ^ 32 < 20 ∨ amount.toNat + 20 ≤ count % 2 ^ 32)

namespace SqliteDatabase

/-! ## The subtraction -/

section Subtraction

variable {amount questionsCount : UInt32} (hamount : amount.toNat + 20 < 2 ^ 32)

/-- A count below 20 wraps, and passes for a large one. -/
theorem toNat_sub_extra (questionsCount : UInt32) : (questionsCount - 20).toNat =
    if questionsCount.toNat < 20 then 2 ^ 32 - 20 + questionsCount.toNat
    else questionsCount.toNat - 20 := by
  have hlt := questionsCount.toNat_lt
  rw [UInt32.toNat_sub, show (20 : UInt32).toNat = 20 from rfl]
  split_ifs <;> omega

include hamount in
theorem le_sub_extra_iff : amount ≤ questionsCount - 20 ↔
    questionsCount.toNat < 20 ∨ amount.toNat + 20 ≤ questionsCount.toNat := by
  rw [UInt32.le_iff_toNat_le, toNat_sub_extra]
  split_ifs <;> omega

include hamount in
theorem toNat_questionsToAdd (h : ¬ amount ≤ questionsCount - 20) :
    (amount - (questionsCount - 20)).toNat = amount.toNat + 20 - questionsCount.toNat := by
  rw [le_sub_extra_iff hamount] at h
  have hlt := questionsCount.toNat_lt
  rw [UInt32.toNat_sub, toNat_sub_extra]
  split_ifs <;> omega

end Subtraction

/-! ## The calls -/

section Calls

variable {E : Fault → Prop} {s : Managers}

theorem wp_getQuestionsCount {Q : List (Event operations) → Result UInt32 → Managers → Prop}
    (h : ∀ t, (∀ e ∈ t, e.1.IsDatabase) →
      Q t (.ok (UInt32.ofNat s.database.questions.length)) s) :
    wp (machine true) E getQuestionsCount Q s := by
  unfold getQuestionsCount
  rw [wp_bind]
  apply wp_db
  intro c r db hc hx
  rw [DbOp.exec_succeeds rfl hc] at hx
  cases hx
  exact h _ (by simp [event, Op.IsDatabase])

theorem addQuestions_isDatabase (questions : List QuestionDb) :
    (addQuestions questions).Only Op.IsDatabase := by
  induction questions with
  | nil => trivial
  | cons question rest ih =>
      refine only_db_bind trivial fun r => ?_
      cases r <;> exact ih

theorem wp_addQuestions (questions : List QuestionDb) :
    wp (machine true) E (addQuestions questions) (fun t _ _ => ∀ e ∈ t, e.1.IsDatabase) s := by
  have hfault : ∀ o s e, Op.IsDatabase o → (machine true).Fault o s e → E e := by
    rintro o s e ho ⟨c, -, hx⟩
    cases o with
    | database o => cases hx
    | _ => exact ho.elim
  refine wp_imp ((addQuestions_isDatabase questions).wp_rel (R := fun _ _ => True)
    (fun _ => trivial) (fun _ _ _ _ _ => trivial) (fun _ _ _ _ _ _ => trivial) hfault s) ?_
  exact fun t a s' h => h.2

/-- Behind the two branches: the pool is as before, and what it has is drawn from it. -/
theorem wp_pickQuestions (amount : UInt32) :
    wp (machine true) E (pickQuestions amount) (fun t r s' => (∀ e ∈ t, e.1.IsDatabase) ∧
      Draws amount r s'.database.questions) s := by
  unfold pickQuestions
  rw [wp_bind]
  apply wp_db
  intro c r db hc hx
  rw [DbOp.exec_succeeds rfl hc] at hx
  cases hx
  dsimp only
  have hperm : (if c.questions.isPerm s.database.questions then c.questions
      else s.database.questions).Perm s.database.questions := by
    split_ifs with h
    · exact List.isPerm_iff.mp h
    · exact .refl _
  generalize (if c.questions.isPerm s.database.questions then c.questions
    else s.database.questions) = order at hperm
  split_ifs with hlength
  · refine ⟨by simp [event, Op.IsDatabase], fun henough => absurd ?_ hlength⟩
    rw [List.length_take, hperm.length_eq]
    exact Nat.min_eq_left henough
  · refine ⟨by simp [event, Op.IsDatabase], fun _ => ⟨_, rfl, not_not.mp hlength, ?_⟩⟩
    exact (List.take_sublist _ _).subperm.trans hperm.subperm

/-- The amount that the code fetches for a stored count of 32 bits. -/
def codeFetches (amount questionsCount : UInt32) : List UInt32 :=
  if amount ≤ questionsCount - 20 then [] else [amount - (questionsCount - 20)]

theorem wp_getQuestions (amount : UInt32) :
    wp (machine true) E (getQuestions amount) (fun t r s' =>
      fetchedAmounts t = codeFetches amount (UInt32.ofNat s.database.questions.length) ∧
      (¬ FetchFailed t → Draws amount r s'.database.questions)) s := by
  unfold getQuestions
  rw [wp_bind]
  apply wp_getQuestionsCount
  intro t₁ ht₁
  dsimp only
  rw [codeFetches]
  split_ifs with hle
  · refine wp_imp (wp_pickQuestions amount) ?_
    rintro t r s' ⟨ht, hdraws⟩
    refine ⟨?_, fun _ => hdraws⟩
    exact fetchedAmounts_of_database (List.forall_mem_append.mpr ⟨ht₁, ht⟩)
  · rw [wp_bind, wp_external]
    intro c
    rw [ExternalOp.exec, ensures_ok]
    generalize amount - (UInt32.ofNat s.database.questions.length - 20) = questionsToAdd
    have hfetch : ∀ (r : Result (List QuestionDb)),
        fetchedAmounts [event (.external (.fetchQuestions questionsToAdd)) r] =
          [questionsToAdd] := fun _ => rfl
    split_ifs
    · refine ⟨?_, fun hsuccess => absurd ⟨questionsToAdd, c.error, by simp⟩ hsuccess⟩
      simp [fetchedAmounts_of_database ht₁, hfetch]
    · dsimp only
      rw [wp_bind]
      refine wp_imp (wp_addQuestions c.questions) ?_
      intro t₂ _ s₂ ht₂
      refine wp_imp (wp_pickQuestions amount) ?_
      rintro t₃ r s' ⟨ht₃, hdraws⟩
      refine ⟨?_, fun _ => hdraws⟩
      simp only [fetchedAmounts_append, fetchedAmounts_of_database ht₁,
        fetchedAmounts_of_database ht₂, fetchedAmounts_of_database ht₃, hfetch, List.nil_append,
        List.append_nil]

end Calls

/-- What the code fetches is what is missing, for the counts that suffice and no others. -/
theorem codeFetches_iff {amount : UInt32} (hamount : amount.toNat + 20 < 2 ^ 32) (count : ℕ) :
    (codeFetches amount (UInt32.ofNat count)).map UInt32.toNat =
      (if count < amount.toNat + 20 then [amount.toNat + 20 - count] else []) ↔
    CountSuffices amount count := by
  have hcount : (UInt32.ofNat count).toNat = count % 2 ^ 32 := UInt32.toNat_ofNat'
  have hle : amount ≤ UInt32.ofNat count - 20 ↔
      count % 2 ^ 32 < 20 ∨ amount.toNat + 20 ≤ count % 2 ^ 32 :=
    hcount ▸ le_sub_extra_iff hamount
  rw [codeFetches, CountSuffices]
  by_cases hcode : amount ≤ UInt32.ofNat count - 20
  · rw [if_pos hcode, List.map_nil]
    have hcount' := hle.mp hcode
    split_ifs with hshort
    · simp only [false_iff]
      omega
    · simp only [true_iff]
      omega
  · rw [if_neg hcode, List.map_singleton, toNat_questionsToAdd hamount hcode, hcount]
    have hcount' := mt hle.mpr hcode
    split_ifs with hshort
    · simp only [List.cons.injEq, and_true]
      omega
    · simp only [false_iff]
      omega

end SqliteDatabase

/-- `getQuestions` tops the pool up, for the stored counts that suffice and no others. -/
theorem toppedUp_iff {amount : UInt32} (hamount : amount.toNat + 20 < 2 ^ 32)
    {s s' : Managers} {t : List (Event operations)} {r : Result (List QuestionDb)}
    (hx : Exec (machine true) (SqliteDatabase.getQuestions amount) s t r s') :
    ToppedUp amount s t r s' ↔ CountSuffices amount s.database.questions.length := by
  obtain ⟨hfetches, hdraws⟩ :=
    hx.of_wp (SqliteDatabase.wp_getQuestions (E := fun _ => True) amount)
  rw [← SqliteDatabase.codeFetches_iff hamount, ← hfetches]
  exact ⟨ToppedUp.fetches, fun h => ⟨h, hdraws⟩⟩

/-- A pool of equal questions. -/
def poolOf (count : ℕ) : Managers :=
  .init { sampleDatabase with
    questions := List.replicate count ⟨1, "q0", "a", "b", "c", "d"⟩ }

/-- Five questions are asked for while 24 are stored: one is fetched. -/
theorem toppedUp_oneShort : ∃ t r s',
    Exec (machine true) (SqliteDatabase.getQuestions 5) (poolOf 24) t r s' ∧
    ToppedUp 5 (poolOf 24) t r s' := by
  have hrun : (interpreter.run (Op.admits true) (SqliteDatabase.getQuestions 5)
      [usual, { questions := [⟨1, "q1", "a", "b", "c", "d"⟩] }, usual, usual]
      (poolOf 24)).isSome = true := by decide +kernel
  obtain ⟨⟨t, r, s'⟩, hout⟩ := Option.isSome_iff_exists.mp hrun
  have hx := Interpreter.exec_of_run hout
  exact ⟨t, r, s', hx, (toppedUp_iff (by decide) hx).mpr ⟨by decide, .inl (by decide)⟩⟩

/-- Two questions are stored, and nothing is fetched. -/
theorem not_toppedUp : ¬ ∀ (amount : UInt32) (s s' : Managers) (t : List (Event operations))
    (r : Result (List QuestionDb)), amount.toNat + 20 < 2 ^ 32 →
    Exec (machine true) (SqliteDatabase.getQuestions amount) s t r s' →
    ToppedUp amount s t r s' := by
  intro h
  have hx := Interpreter.exec_of_run (show interpreter.run (Op.admits true)
    (SqliteDatabase.getQuestions 2) [usual, usual] (.init sampleDatabase) = some _ from rfl)
  exact absurd (h _ _ _ _ _ (by decide) hx).fetches (by decide)

end TriviaServer
