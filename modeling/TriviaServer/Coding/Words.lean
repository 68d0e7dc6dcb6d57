import Mathlib.Data.List.Basic

/-! # Codes whose words tell where they end

Two values are apart under a code when their words, whatever follows them, are not taken for
each other. A stream of such words is read in one way only, also when it breaks off. -/

namespace Coding

variable {α β : Type} {encode : α → List β}

def Apart (encode : α → List β) (a b : α) : Prop :=
  ∀ ⦃s t⦄, encode a ++ s = encode b ++ t → a = b ∧ s = t

/-- No whole word for one of the values is at the start. -/
def Unfinished (encode : α → List β) (values : List α) (rest : List β) : Prop :=
  ∀ a ∈ values, ¬ encode a <+: rest

theorem unfinished_nil {values : List α} (h : ∀ a ∈ values, encode a ≠ []) :
    Unfinished encode values [] :=
  fun a ha hprefix => h a ha (List.prefix_nil.mp hprefix)

theorem flatMap_unique {xs ys : List α} {s t : List β}
    (hapart : ∀ a ∈ xs, ∀ b ∈ ys, Apart encode a b) (hs : Unfinished encode ys s)
    (ht : Unfinished encode xs t) (h : xs.flatMap encode ++ s = ys.flatMap encode ++ t) :
    xs = ys ∧ s = t := by
  induction xs generalizing ys with
  | nil =>
      cases ys with
      | nil => exact ⟨rfl, by simpa using h⟩
      | cons b ys =>
          have hword : encode b <+: s := ⟨ys.flatMap encode ++ t, by simp_all⟩
          exact absurd hword (hs b List.mem_cons_self)
  | cons a xs ih =>
      cases ys with
      | nil =>
          have hword : encode a <+: t := ⟨xs.flatMap encode ++ s, by simp_all⟩
          exact absurd hword (ht a List.mem_cons_self)
      | cons b ys =>
          simp only [List.flatMap_cons, List.append_assoc] at h
          obtain ⟨rfl, hrest⟩ := hapart a List.mem_cons_self b List.mem_cons_self h
          obtain ⟨rfl, rfl⟩ := ih
            (fun a ha b hb => hapart a (List.mem_cons_of_mem _ ha) b (List.mem_cons_of_mem _ hb))
            (fun b hb => hs b (List.mem_cons_of_mem _ hb))
            (fun a ha => ht a (List.mem_cons_of_mem _ ha)) hrest
          exact ⟨rfl, rfl⟩

end Coding
