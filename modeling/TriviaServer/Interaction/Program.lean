import Mathlib.Data.Nat.Notation
import Mathlib.Logic.Basic

/-! # Programs over an interface of operations

A program is a tree of calls. A machine says how a state answers one call, so the
same program can be executed in one go or interleaved call by call with others. -/

namespace Interaction

/-- The operations a program may call, each with the type of its answers. -/
structure Signature where
  Op : Type
  Answer : Op → Type

/-- A call together with the answer it received. -/
abbrev Event (S : Signature) := Σ o : S.Op, S.Answer o

/-- A program either has a value or performs one operation and continues with its answer. -/
inductive Program (S : Signature) (α : Type) : Type where
  | pure (a : α) : Program S α
  | perform (o : S.Op) (next : S.Answer o → Program S α) : Program S α

namespace Program

variable {S : Signature} {α β γ : Type}

def bind : Program S α → (α → Program S β) → Program S β
  | .pure a, f => f a
  | .perform o next, f => .perform o fun r => (next r).bind f

instance : Monad (Program S) where
  pure := .pure
  bind := bind

/-- The program that performs a single operation and returns its answer. -/
def call (o : S.Op) : Program S (S.Answer o) := .perform o .pure

@[simp] theorem pure_eq (a : α) : Program.pure a = (Pure.pure a : Program S α) := rfl

@[simp] theorem perform_bind (o : S.Op) (next : S.Answer o → Program S α)
    (f : α → Program S β) :
    (Program.perform o next >>= f) = .perform o fun r => next r >>= f := rfl

theorem call_bind (o : S.Op) (f : S.Answer o → Program S β) :
    (call o >>= f) = .perform o f := rfl

theorem id_map_eq (p : Program S α) : id <$> p = p := by
  induction p with
  | pure a => rfl
  | perform o next ih => exact congrArg (Program.perform o) (funext ih)

theorem bind_assoc_eq (p : Program S α) (f : α → Program S β) (g : β → Program S γ) :
    (p >>= f) >>= g = p >>= fun a => f a >>= g := by
  induction p with
  | pure a => rfl
  | perform o next ih => exact congrArg (Program.perform o) (funext ih)

instance : LawfulMonad (Program S) :=
  LawfulMonad.mk' _ id_map_eq (fun _ _ => rfl) bind_assoc_eq

/-- Every operation the program can reach satisfies `φ`, whatever answers it gets. -/
def Only (φ : S.Op → Prop) : Program S α → Prop
  | .pure _ => True
  | .perform o next => φ o ∧ ∀ r, (next r).Only φ

@[simp] theorem only_pure (φ : S.Op → Prop) (a : α) : (pure a : Program S α).Only φ :=
  trivial

theorem only_call {φ : S.Op → Prop} {o : S.Op} (h : φ o) : (call o).Only φ :=
  ⟨h, fun _ => trivial⟩

theorem Only.bind {φ : S.Op → Prop} {p : Program S α} {f : α → Program S β}
    (hp : p.Only φ) (hf : ∀ a, (f a).Only φ) : (p >>= f).Only φ := by
  induction p with
  | pure a => exact hf a
  | perform o next ih => exact ⟨hp.1, fun r => ih r (hp.2 r)⟩

theorem Only.mono {φ ψ : S.Op → Prop} (h : ∀ o, φ o → ψ o) {p : Program S α}
    (hp : p.Only φ) : p.Only ψ := by
  induction p with
  | pure a => trivial
  | perform o next ih => exact ⟨h o hp.1, fun r => ih r (hp.2 r)⟩

/-- Every value the program can end with satisfies `φ`, whatever answers it gets. -/
def Returns (φ : α → Prop) : Program S α → Prop
  | .pure a => φ a
  | .perform _ next => ∀ r, (next r).Returns φ

theorem Returns.bind {φ : β → Prop} {p : Program S α} {f : α → Program S β}
    (hf : ∀ a, (f a).Returns φ) : (p >>= f).Returns φ := by
  induction p with
  | pure a => exact hf a
  | perform o next ih => exact fun r => ih r

/-- Operations in `φ` only, and then a value in `ψ`. -/
def OnlyThen (φ : S.Op → Prop) (ψ : α → Prop) : Program S α → Prop
  | .pure a => ψ a
  | .perform o next => φ o ∧ ∀ r, (next r).OnlyThen φ ψ

theorem OnlyThen.then {φ : S.Op → Prop} {χ : α → Prop} {ψ : β → Prop} {p : Program S α}
    {f : α → Program S β} (hp : p.OnlyThen φ χ) (hf : ∀ a, χ a → (f a).OnlyThen φ ψ) :
    (p >>= f).OnlyThen φ ψ := by
  induction p with
  | pure a => exact hf a hp
  | perform o next ih => exact ⟨hp.1, fun r => ih r (hp.2 r)⟩

theorem OnlyThen.only {φ : S.Op → Prop} {ψ : α → Prop} {p : Program S α}
    (hp : p.OnlyThen φ ψ) : p.Only φ := by
  induction p with
  | pure a => trivial
  | perform o next ih => exact ⟨hp.1, fun r => ih r (hp.2 r)⟩

theorem OnlyThen.mono {φ φ' : S.Op → Prop} {ψ ψ' : α → Prop} (h : ∀ o, φ o → φ' o)
    (h' : ∀ a, ψ a → ψ' a) {p : Program S α} (hp : p.OnlyThen φ ψ) : p.OnlyThen φ' ψ' := by
  induction p with
  | pure a => exact h' a hp
  | perform o next ih => exact ⟨h o hp.1, fun r => ih r (hp.2 r)⟩

theorem OnlyThen.imp {φ φ' : S.Op → Prop} {ψ : α → Prop} (h : ∀ o, φ o → φ' o)
    {p : Program S α} (hp : p.OnlyThen φ ψ) : p.OnlyThen φ' ψ :=
  hp.mono h fun _ => id

theorem Only.then_true {φ : S.Op → Prop} {p : Program S α} (hp : p.Only φ) :
    p.OnlyThen φ fun _ => True := by
  induction p with
  | pure a => trivial
  | perform o next ih => exact ⟨hp.1, fun r => ih r (hp.2 r)⟩

theorem OnlyThen.bind {φ : S.Op → Prop} {ψ : β → Prop} {p : Program S α} {f : α → Program S β}
    (hp : p.Only φ) (hf : ∀ a, (f a).OnlyThen φ ψ) : (p >>= f).OnlyThen φ ψ :=
  hp.then_true.then fun a _ => hf a

/-- Every path of the program either has calls in `φ` only and ends with `ψ`, or ends in a
good value. -/
def Guarded (φ : Event S → Prop) (good ψ : α → Prop) : Program S α → Prop
  | .pure a => good a ∨ ψ a
  | .perform o next => ∀ r, (φ ⟨o, r⟩ ∧ (next r).Guarded φ good ψ) ∨ (next r).Returns good

theorem Returns.guarded {φ : Event S → Prop} {good ψ : α → Prop} {p : Program S α}
    (hp : p.Returns good) : p.Guarded φ good ψ := by
  cases p with
  | pure a => exact .inl hp
  | perform o next => exact fun r => .inr (hp r)

theorem Guarded.bind {φ : Event S → Prop} {good ψ : β → Prop} {p : Program S α}
    {f : α → Program S β} (hp : p.Only fun o => ∀ r, φ ⟨o, r⟩)
    (hf : ∀ a, (f a).Guarded φ good ψ) : (p >>= f).Guarded φ good ψ := by
  induction p with
  | pure a => exact hf a
  | perform o next ih => exact fun r => .inl ⟨hp.1 r, ih r (hp.2 r)⟩

end Program

/-- How a state answers operations: the successful answers and the faults. -/
structure Machine (S : Signature) (σ ε : Type) where
  Step : (o : S.Op) → σ → S.Answer o → σ → Prop
  Fault : S.Op → σ → ε → Prop

section Execution

variable {S : Signature} {σ ε α β : Type} (M : Machine S σ ε)

/-- A complete execution of a program, with the calls it made and their answers. -/
inductive Exec {α : Type} : Program S α → σ → List (Event S) → α → σ → Prop where
  | pure (a s) : Exec (.pure a) s [] a s
  | perform {o next s r s' t a s''} : M.Step o s r s' → Exec (next r) s' t a s'' →
      Exec (.perform o next) s (⟨o, r⟩ :: t) a s''

/-- An execution that ends in a fault. -/
inductive Faults {α : Type} : Program S α → σ → ε → Prop where
  | here {o next s e} : M.Fault o s e → Faults (.perform o next) s e
  | later {o next s r s' e} : M.Step o s r s' → Faults (next r) s' e →
      Faults (.perform o next) s e

/-- Every execution ends with `Q`, and every fault it can end in satisfies `E`. -/
def wp (E : ε → Prop) : Program S α → (List (Event S) → α → σ → Prop) → σ → Prop
  | .pure a, Q, s => Q [] a s
  | .perform o next, Q, s => (∀ e, M.Fault o s e → E e) ∧
      ∀ r s', M.Step o s r s' → wp E (next r) (fun t => Q (⟨o, r⟩ :: t)) s'

variable {M} {E : ε → Prop}

@[simp] theorem wp_pure (a : α) (Q : List (Event S) → α → σ → Prop) (s : σ) :
    wp M E (pure a) Q s ↔ Q [] a s := Iff.rfl

theorem wp_perform (o : S.Op) (next : S.Answer o → Program S α)
    (Q : List (Event S) → α → σ → Prop) (s : σ) :
    wp M E (.perform o next) Q s ↔ (∀ e, M.Fault o s e → E e) ∧
      ∀ r s', M.Step o s r s' → wp M E (next r) (fun t => Q (⟨o, r⟩ :: t)) s' := Iff.rfl

theorem wp_call (o : S.Op) (Q : List (Event S) → S.Answer o → σ → Prop) (s : σ) :
    wp M E (Program.call o) Q s ↔ (∀ e, M.Fault o s e → E e) ∧
      ∀ r s', M.Step o s r s' → Q [⟨o, r⟩] r s' := Iff.rfl

theorem wp_bind (p : Program S α) (f : α → Program S β)
    (Q : List (Event S) → β → σ → Prop) (s : σ) :
    wp M E (p >>= f) Q s ↔
      wp M E p (fun t a s' => wp M E (f a) (fun t' => Q (t ++ t')) s') s := by
  induction p generalizing Q s with
  | pure a => exact Iff.rfl
  | perform o next ih =>
      simp only [Program.perform_bind, wp_perform]
      refine and_congr_right fun _ => forall_congr' fun r => forall_congr' fun s' =>
        imp_congr_right fun _ => ?_
      simpa only [List.cons_append] using ih r (fun t => Q (⟨o, r⟩ :: t)) s'

/-- The consequence rule. -/
theorem wp_mono {E' : ε → Prop} (hE : ∀ e, E e → E' e) {p : Program S α}
    {Q Q' : List (Event S) → α → σ → Prop} (hQ : ∀ t a s, Q t a s → Q' t a s) {s : σ}
    (h : wp M E p Q s) : wp M E' p Q' s := by
  induction p generalizing Q Q' s with
  | pure a => exact hQ _ _ _ h
  | perform o next ih =>
      exact ⟨fun e he => hE e (h.1 e he),
        fun r s' hs => ih r (fun t a s => hQ (⟨o, r⟩ :: t) a s) (h.2 r s' hs)⟩

theorem wp_imp {p : Program S α} {Q Q' : List (Event S) → α → σ → Prop} {s : σ}
    (h : wp M E p Q s) (hQ : ∀ t a s, Q t a s → Q' t a s) : wp M E p Q' s :=
  wp_mono (fun _ he => he) hQ h

/-- The weakest precondition is exactly the statement about all executions and faults. -/
theorem wp_iff (p : Program S α) (Q : List (Event S) → α → σ → Prop) (s : σ) :
    wp M E p Q s ↔
      (∀ t a s', Exec M p s t a s' → Q t a s') ∧ ∀ e, Faults M p s e → E e := by
  induction p generalizing Q s with
  | pure a =>
      constructor
      · intro h
        refine ⟨?_, fun e he => nomatch he⟩
        intro t b s' hx
        cases hx
        exact h
      · intro h
        exact h.1 _ _ _ (.pure a s)
  | perform o next ih =>
      constructor
      · rintro ⟨hf, hs⟩
        refine ⟨?_, ?_⟩
        · intro t a s' hx
          cases hx with
          | perform hstep hrest => exact ((ih _ _ _).mp (hs _ _ hstep)).1 _ _ _ hrest
        · intro e he
          cases he with
          | here h => exact hf e h
          | later hstep h => exact ((ih _ _ _).mp (hs _ _ hstep)).2 e h
      · rintro ⟨hx, hf⟩
        refine ⟨fun e he => hf e (.here he), fun r s' hstep => (ih _ _ _).mpr ⟨?_, ?_⟩⟩
        · intro t a s'' h
          exact hx _ _ _ (.perform hstep h)
        · intro e h
          exact hf e (.later hstep h)

theorem Exec.of_wp {p : Program S α} {Q : List (Event S) → α → σ → Prop} {s s' : σ}
    {t : List (Event S)} {a : α} (hx : Exec M p s t a s') (h : wp M E p Q s) : Q t a s' :=
  ((wp_iff p Q s).mp h).1 t a s' hx

theorem wp_of_exec {p : Program S α} {Q : List (Event S) → α → σ → Prop} {s : σ}
    (h : ∀ t a s', Exec M p s t a s' → Q t a s') : wp M (fun _ => True) p Q s :=
  (wp_iff p Q s).mpr ⟨h, fun _ _ => trivial⟩

theorem Faults.of_wp {p : Program S α} {Q : List (Event S) → α → σ → Prop} {s : σ} {e : ε}
    (hx : Faults M p s e) (h : wp M E p Q s) : E e :=
  ((wp_iff p Q s).mp h).2 e hx

/-- Programs that only use operations keeping a preorder `R` keep `R` as a whole. -/
theorem Program.OnlyThen.wp_rel {φ : S.Op → Prop} {ψ : α → Prop} {R : σ → σ → Prop}
    (hrefl : ∀ s, R s s) (htrans : ∀ a b c, R a b → R b c → R a c)
    (hstep : ∀ o s r s', φ o → M.Step o s r s' → R s s')
    (hfault : ∀ o s e, φ o → M.Fault o s e → E e) {p : Program S α} (hp : p.OnlyThen φ ψ) (s : σ) :
    wp M E p (fun t a s' => R s s' ∧ ψ a ∧ ∀ e ∈ t, φ e.1) s := by
  induction p generalizing s with
  | pure a => exact ⟨hrefl s, hp, by simp⟩
  | perform o next ih =>
      refine ⟨fun e he => hfault o s e hp.1 he, fun r s' hs => ?_⟩
      refine wp_imp (ih r (hp.2 r) s') fun t a s'' h => ?_
      refine ⟨htrans _ _ _ (hstep o s r s' hp.1 hs) h.1, h.2.1, ?_⟩
      intro e he
      rcases List.mem_cons.mp he with rfl | he
      · exact hp.1
      · exact h.2.2 e he

theorem Program.Only.wp_rel {φ : S.Op → Prop} {R : σ → σ → Prop} (hrefl : ∀ s, R s s)
    (htrans : ∀ a b c, R a b → R b c → R a c)
    (hstep : ∀ o s r s', φ o → M.Step o s r s' → R s s')
    (hfault : ∀ o s e, φ o → M.Fault o s e → E e) {p : Program S α} (hp : p.Only φ) (s : σ) :
    wp M E p (fun t _ s' => R s s' ∧ ∀ e ∈ t, φ e.1) s :=
  wp_imp (hp.then_true.wp_rel hrefl htrans hstep hfault s) fun _ _ _ h => ⟨h.1, h.2.2⟩

/-- The rule for programs whose operations all keep the state as it is. -/
theorem Program.OnlyThen.wp {φ : S.Op → Prop} {ψ : α → Prop}
    (hstep : ∀ o s r s', φ o → M.Step o s r s' → s' = s)
    (hfault : ∀ o s e, φ o → M.Fault o s e → E e) {p : Program S α} (hp : p.OnlyThen φ ψ)
    {Q : List (Event S) → α → σ → Prop} {s : σ} (h : ∀ t a, ψ a → Q t a s) : wp M E p Q s := by
  induction p generalizing Q with
  | pure a => exact h [] a hp
  | perform o next ih =>
      refine ⟨fun e he => hfault o s e hp.1 he, fun r s' hs => ?_⟩
      rw [hstep o s r s' hp.1 hs]
      exact ih r (hp.2 r) fun t a ha => h _ a ha

/-- The calls of a program are among those it can make. -/
theorem wp_only {φ : S.Op → Prop} {p : Program S α} (hp : p.Only φ)
    {Q : List (Event S) → α → σ → Prop} {s : σ} (h : wp M E p Q s) :
    wp M E p (fun t a s' => Q t a s' ∧ ∀ e ∈ t, φ e.1) s := by
  induction p generalizing Q s with
  | pure a => exact ⟨h, by simp⟩
  | perform o next ih =>
      refine ⟨h.1, fun r s' hs => wp_imp (ih r (hp.2 r) (h.2 r s' hs)) fun t a s'' h => ⟨h.1, ?_⟩⟩
      intro e he
      rcases List.mem_cons.mp he with rfl | he
      · exact hp.1
      · exact h.2 e he

theorem Exec.of_returns {φ : α → Prop} {p : Program S α} {s s' : σ} {t : List (Event S)}
    {a : α} (hx : Exec M p s t a s') (hp : p.Returns φ) : φ a := by
  induction hx with
  | pure a s => exact hp
  | perform _ _ ih => exact ih (hp _)

/-- An execution keeps every preorder that all operations keep. -/
theorem Exec.keeps {R : σ → σ → Prop} (hrefl : ∀ s, R s s)
    (htrans : ∀ a b c, R a b → R b c → R a c) (hstep : ∀ o s r s', M.Step o s r s' → R s s')
    {p : Program S α} {s s' : σ} {t : List (Event S)} {a : α} (hx : Exec M p s t a s') :
    R s s' := by
  induction hx with
  | pure a s => exact hrefl s
  | perform hs _ ih => exact htrans _ _ _ (hstep _ _ _ _ hs) ih

/-- An execution of a guarded program that does not end in a good value has kept every
preorder that the calls in `φ` keep. -/
theorem Exec.of_guarded {φ : Event S → Prop} {R : σ → σ → Prop} (hrefl : ∀ s, R s s)
    (htrans : ∀ a b c, R a b → R b c → R a c)
    (hstep : ∀ o s r s', φ ⟨o, r⟩ → M.Step o s r s' → R s s') {good ψ : α → Prop}
    {p : Program S α} {s s' : σ} {t : List (Event S)} {a : α} (hx : Exec M p s t a s')
    (hp : p.Guarded φ good ψ) : good a ∨ (ψ a ∧ R s s' ∧ ∀ e ∈ t, φ e) := by
  induction hx with
  | pure a s =>
      rcases hp with hgood | hψ
      · exact .inl hgood
      · exact .inr ⟨hψ, hrefl s, by simp⟩
  | @perform o next s r s₁ t a s' hs hrest ih =>
      rcases hp r with ⟨ho, hnext⟩ | hgood
      · rcases ih hnext with hgood | ⟨hψ, hR, ht⟩
        · exact .inl hgood
        · refine .inr ⟨hψ, htrans _ _ _ (hstep o s r s₁ ho hs) hR, ?_⟩
          intro e he
          rcases List.mem_cons.mp he with rfl | he
          · exact ho
          · exact ht e he
      · exact .inl (hrest.of_returns hgood)

end Execution

/-- What holds of a computation that may fail: `Q` of its value, `E` of its fault. -/
def Ensures {ε α : Type} (E : ε → Prop) (Q : α → Prop) : Except ε α → Prop
  | .error e => E e
  | .ok a => Q a

@[simp] theorem ensures_error {ε α : Type} (E : ε → Prop) (Q : α → Prop) (e : ε) :
    Ensures E Q (.error e) ↔ E e := Iff.rfl

@[simp] theorem ensures_ok {ε α : Type} (E : ε → Prop) (Q : α → Prop) (a : α) :
    Ensures E Q (.ok a) ↔ Q a := Iff.rfl

@[simp] theorem ensures_map {ε α β : Type} (E : ε → Prop) (Q : β → Prop) (f : α → β)
    (x : Except ε α) : Ensures E Q (x.map f) ↔ Ensures E (fun a => Q (f a)) x := by
  cases x <;> exact Iff.rfl

/-- Operations computed from an outcome `χ` that the environment chooses. -/
structure Interpreter (S : Signature) (σ χ ε : Type) where
  exec : (o : S.Op) → χ → σ → Except ε (S.Answer o × σ)

namespace Interpreter

variable {S : Signature} {σ χ ε α : Type} (I : Interpreter S σ χ ε)

/-- The machine in which the environment may choose any admitted outcome. -/
def machine (admits : S.Op → χ → σ → Bool) : Machine S σ ε where
  Step o s r s' := ∃ c, admits o c s = true ∧ I.exec o c s = .ok (r, s')
  Fault o s e := ∃ c, admits o c s = true ∧ I.exec o c s = .error e

/-- Execution along a given list of outcomes, one for each operation. -/
def run (admits : S.Op → χ → σ → Bool) :
    Program S α → List χ → σ → Option (List (Event S) × α × σ)
  | .pure a, _, s => some ([], a, s)
  | .perform _ _, [], _ => none
  | .perform o next, c :: cs, s =>
      if admits o c s then
        match I.exec o c s with
        | .error _ => none
        | .ok (r, s') =>
            match run admits (next r) cs s' with
            | none => none
            | some (t, a, s'') => some (⟨o, r⟩ :: t, a, s'')
      else none

/-- How a program ends along a given list of outcomes, in a fault or with a value; not at all
where the outcomes do not fit. -/
def outcome (admits : S.Op → χ → σ → Bool) : Program S α → List χ → σ → Option (Except ε α)
  | .pure a, _, _ => some (.ok a)
  | .perform _ _, [], _ => none
  | .perform o next, c :: cs, s =>
      if admits o c s then
        match I.exec o c s with
        | .error e => some (.error e)
        | .ok (r, s') => outcome admits (next r) cs s'
      else none

variable {I}

/-- A fault that neither part of a program ends in is not one of the whole program. -/
theorem outcome_bind_ne {β : Type} {admits : S.Op → χ → σ → Bool} {p : Program S α}
    {f : α → Program S β} {e : ε} {cs : List χ} {s : σ}
    (hp : I.outcome admits p cs s ≠ some (.error e))
    (hf : ∀ a cs s, I.outcome admits (f a) cs s ≠ some (.error e)) :
    I.outcome admits (p >>= f) cs s ≠ some (.error e) := by
  induction p generalizing cs s with
  | pure a => exact hf a cs s
  | perform o next ih =>
      rw [Program.perform_bind]
      cases cs with
      | nil => nofun
      | cons c cs =>
          rw [outcome] at hp ⊢
          by_cases hc : admits o c s = true
          · simp only [hc, if_true] at hp ⊢
            cases hx : I.exec o c s with
            | error e' =>
                simp only [hx] at hp ⊢
                intro h
                cases h
                exact hp rfl
            | ok rs =>
                simp only [hx] at hp ⊢
                exact ih rs.1 hp
          · simp [hc]

theorem exec_of_run {admits : S.Op → χ → σ → Bool} {p : Program S α} {cs : List χ}
    {s s' : σ} {t : List (Event S)} {a : α} (h : I.run admits p cs s = some (t, a, s')) :
    Exec (I.machine admits) p s t a s' := by
  induction p generalizing cs s t with
  | pure b =>
      simp only [run, Option.some.injEq, Prod.mk.injEq] at h
      obtain ⟨rfl, rfl, rfl⟩ := h
      exact .pure _ _
  | perform o next ih =>
      cases cs with
      | nil => simp [run] at h
      | cons c cs =>
          by_cases hc : admits o c s = true
          · cases hx : I.exec o c s with
            | error e => simp [run, hc, hx] at h
            | ok rs =>
                obtain ⟨r, s₁⟩ := rs
                cases hr : I.run admits (next r) cs s₁ with
                | none => simp [run, hc, hx, hr] at h
                | some out =>
                    obtain ⟨t₁, b, s₂⟩ := out
                    simp only [run, hc, hx, hr, if_true, Option.some.injEq,
                      Prod.mk.injEq] at h
                    obtain ⟨rfl, rfl, rfl⟩ := h
                    exact .perform ⟨c, hc, hx⟩ (ih r hr)
          · simp [run, hc] at h

/-- What a call guarantees is what every admitted outcome computes. -/
theorem wp_call_iff {admits : S.Op → χ → σ → Bool} {E : ε → Prop} (o : S.Op)
    (Q : List (Event S) → S.Answer o → σ → Prop) (s : σ) :
    wp (I.machine admits) E (Program.call o) Q s ↔
      ∀ c, admits o c s = true → Ensures E (fun x => Q [⟨o, x.1⟩] x.1 x.2) (I.exec o c s) := by
  rw [wp_call]
  constructor
  · rintro ⟨hf, hs⟩ c hc
    cases hx : I.exec o c s with
    | error e => exact hf e ⟨c, hc, hx⟩
    | ok rs => exact hs _ _ ⟨c, hc, hx⟩
  · intro h
    constructor
    · rintro e ⟨c, hc, hx⟩
      simpa only [hx, ensures_error] using h c hc
    · rintro r s' ⟨c, hc, hx⟩
      simpa only [hx, ensures_ok] using h c hc

end Interpreter

end Interaction
