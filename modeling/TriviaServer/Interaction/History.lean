import Mathlib.Data.List.Basic
import Mathlib.Logic.Function.Basic

/-! # Histories: what a list of labelled observations says

A history lists the observations of several parties in the order in which they happened. One
party's part of it is followed by a fold, and what happens throughout or at some point is
stated of a prefix and the observation that comes next. -/

namespace Interaction

section Follow

variable {ι ω τ : Type} [DecidableEq ι]

/-- What `f` makes of the observations of one party, in order. -/
def follow (f : τ → ω → τ) (initial : τ) (c : ι) (history : List (ι × ω)) : τ :=
  (history.filter fun e => decide (e.1 = c)).foldl (fun st e => f st e.2) initial

@[simp] theorem follow_nil (f : τ → ω → τ) (initial : τ) (c : ι) :
    follow f initial c [] = initial := rfl

@[simp] theorem follow_self (f : τ → ω → τ) (initial : τ) (c : ι) (history : List (ι × ω)) (o : ω) :
    follow f initial c (history ++ [(c, o)]) = f (follow f initial c history) o := by
  simp [follow, List.filter_append]

theorem follow_other (f : τ → ω → τ) (initial : τ) {c c' : ι} (h : c' ≠ c)
    (history : List (ι × ω)) (o : ω) :
    follow f initial c' (history ++ [(c, o)]) = follow f initial c' history := by
  simp [follow, List.filter_append, h.symm]

/-- An observation changes what is followed of its own party only. -/
theorem follow_snoc (f : τ → ω → τ) (initial : τ) (c : ι) (history : List (ι × ω)) (o : ω) :
    (fun c' => follow f initial c' (history ++ [(c, o)])) =
      Function.update (fun c' => follow f initial c' history) c
        (f (follow f initial c history) o) := by
  funext c'
  by_cases h : c' = c
  · subst h
    simp
  · rw [Function.update_of_ne h, follow_other f initial h]

/-- A property of one party at most stays so when a party changes, if it does not have the
property then or nobody else has it. -/
theorem unique_update {standing : ι → τ} {p : τ → Prop} {c : ι} {st : τ}
    (h : ∀ c₁ c₂, p (standing c₁) → p (standing c₂) → c₁ = c₂)
    (hst : p st → ∀ c', c' ≠ c → ¬ p (standing c')) :
    ∀ c₁ c₂, p (Function.update standing c st c₁) → p (Function.update standing c st c₂) →
      c₁ = c₂ := by
  intro c₁ c₂ h₁ h₂
  by_cases hc₁ : c₁ = c <;> by_cases hc₂ : c₂ = c
  · rw [hc₁, hc₂]
  · rw [hc₁, Function.update_self] at h₁
    rw [Function.update_of_ne hc₂] at h₂
    exact absurd h₂ (hst h₁ c₂ hc₂)
  · rw [Function.update_of_ne hc₁] at h₁
    rw [hc₂, Function.update_self] at h₂
    exact absurd h₁ (hst h₂ c₁ hc₁)
  · rw [Function.update_of_ne hc₁] at h₁
    rw [Function.update_of_ne hc₂] at h₂
    exact h c₁ c₂ h₁ h₂

end Follow

section Segments

variable {α : Type} {p : α → Bool}

/-- What comes after the first `n` observations that satisfy `p`, up to the next such one. -/
def segment (p : α → Bool) : ℕ → List α → List α
  | 0, history => history.takeWhile fun e => !p e
  | n + 1, history => segment p n ((history.dropWhile fun e => !p e).drop 1)

theorem segment_zero {history rest : List α} {e : α} (h : ∀ x ∈ history, p x = false)
    (he : p e = true) : segment p 0 (history ++ e :: rest) = history := by
  rw [segment, List.takeWhile_append_of_pos fun x hx => by simp [h x hx]]
  simp [he]

theorem segment_succ {history rest : List α} {e : α} (n : ℕ) (h : ∀ x ∈ history, p x = false)
    (he : p e = true) : segment p (n + 1) (history ++ e :: rest) = segment p n rest := by
  rw [segment, List.dropWhile_append_of_pos fun x hx => by simp [h x hx]]
  simp [he]

@[simp] theorem segment_cons {rest : List α} {e : α} (n : ℕ) (he : p e = true) :
    segment p (n + 1) (e :: rest) = segment p n rest :=
  segment_succ n (List.forall_mem_nil _) he

end Segments

section Moments

variable {α : Type} {φ : List α → α → Prop} {history : List α} {e : α}

/-- At every point of a history, `φ` holds of what came before and of the next observation. -/
def Throughout (φ : List α → α → Prop) (history : List α) : Prop :=
  ∀ before e after, history = before ++ e :: after → φ before e

/-- At some point of a history, `φ` holds of what came before and of the next observation. -/
def Sometime (φ : List α → α → Prop) (history : List α) : Prop :=
  ∃ before e after, history = before ++ e :: after ∧ φ before e

theorem sometime_iff :
    Sometime φ history ↔ ¬ Throughout (fun before e => ¬ φ before e) history := by
  simp only [Sometime, Throughout, not_forall, not_not, exists_prop]

@[simp] theorem throughout_nil : Throughout φ [] := by
  intro before e after h
  simp at h

@[simp] theorem throughout_snoc :
    Throughout φ (history ++ [e]) ↔ Throughout φ history ∧ φ history e := by
  constructor
  · intro h
    refine ⟨?_, h history e [] rfl⟩
    rintro before e' after rfl
    exact h before e' (after ++ [e]) (by simp)
  · rintro ⟨h, he⟩ before e' after heq
    rcases List.eq_nil_or_concat after with rfl | ⟨after, last, rfl⟩
    · obtain ⟨rfl, hlast⟩ := List.append_inj' heq rfl
      cases hlast
      exact he
    · refine h before e' after ?_
      have hsplit : history ++ [e] = (before ++ e' :: after) ++ [last] := by
        simpa using heq
      exact (List.append_inj' hsplit rfl).1

@[simp] theorem not_sometime_nil : ¬ Sometime φ [] := by
  simp [sometime_iff]

@[simp] theorem sometime_snoc :
    Sometime φ (history ++ [e]) ↔ Sometime φ history ∨ φ history e := by
  simp only [sometime_iff, throughout_snoc, not_and_or, not_not]

theorem Sometime.append (h : Sometime φ history) (rest : List α) :
    Sometime φ (history ++ rest) := by
  obtain ⟨before, e, after, rfl, he⟩ := h
  exact ⟨before, e, after ++ rest, by simp, he⟩

end Moments

end Interaction
