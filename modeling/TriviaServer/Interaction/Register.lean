import Mathlib.Data.List.Nodup
import Mathlib.Logic.Function.Basic

/-! # Registers: keys and rows that belong to one party each

A register lists the keys in use; each of them is held by exactly one party. A table may also
hold rows that are claimed: such a row is in the table, and by one party only. -/

namespace Interaction

variable {ι κ ρ α : Type}

theorem update_eq_some [DecidableEq ι] {f : ι → Option α} {c c' : ι} {v : Option α} {a : α} :
    Function.update f c v c' = some a ↔ (c' = c ∧ v = some a) ∨ (c' ≠ c ∧ f c' = some a) := by
  by_cases h : c' = c
  · subst h
    simp
  · simp [h]

/-- The keys listed are those held, each by one party. -/
structure Registered (keys : List κ) (held : ι → Option κ) : Prop where
  nodup : keys.Nodup
  mem_iff : ∀ k, k ∈ keys ↔ ∃ c, held c = some k
  unique : ∀ c c' k, held c = some k → held c' = some k → c = c'

namespace Registered

variable {keys : List κ} {held : ι → Option κ} {c : ι} {k : κ}

theorem mem (h : Registered keys held) (hc : held c = some k) : k ∈ keys :=
  (h.mem_iff k).mpr ⟨c, hc⟩

variable [DecidableEq ι]

/-- A party without a key takes one that is not in use. -/
theorem enter (h : Registered keys held) (hk : k ∉ keys) (hc : held c = none) :
    Registered (keys ++ [k]) (Function.update held c (some k)) where
  nodup := by
    rw [← List.concat_eq_append, List.nodup_concat]
    exact ⟨hk, h.nodup⟩
  mem_iff := by
    intro k'
    simp only [List.mem_append, List.mem_singleton, h.mem_iff, update_eq_some]
    constructor
    · rintro (⟨c', hc'⟩ | rfl)
      · refine ⟨c', .inr ⟨?_, hc'⟩⟩
        rintro rfl
        exact nomatch hc.symm.trans hc'
      · exact ⟨c, .inl ⟨rfl, rfl⟩⟩
    · rintro ⟨c', ⟨-, hk'⟩ | ⟨-, hc'⟩⟩
      · exact .inr (Option.some.inj hk').symm
      · exact .inl ⟨c', hc'⟩
  unique := by
    intro c₁ c₂ k' h₁ h₂
    rcases update_eq_some.mp h₁ with ⟨rfl, hk₁⟩ | ⟨-, hold₁⟩ <;>
      rcases update_eq_some.mp h₂ with ⟨rfl, hk₂⟩ | ⟨-, hold₂⟩
    · rfl
    · exact absurd (h.mem hold₂) (Option.some.inj hk₁ ▸ hk)
    · exact absurd (h.mem hold₁) (Option.some.inj hk₂ ▸ hk)
    · exact h.unique c₁ c₂ k' hold₁ hold₂

/-- A party gives its key back. -/
theorem leave [DecidableEq κ] (h : Registered keys held) (hc : held c = some k) :
    Registered (keys.filter fun k' => decide (k' ≠ k)) (Function.update held c none) where
  nodup := h.nodup.filter _
  mem_iff := by
    intro k'
    simp only [List.mem_filter, h.mem_iff, decide_eq_true_iff, update_eq_some]
    constructor
    · rintro ⟨⟨c', hc'⟩, hne⟩
      refine ⟨c', .inr ⟨?_, hc'⟩⟩
      rintro rfl
      exact hne (Option.some.inj (hc'.symm.trans hc))
    · rintro ⟨c', ⟨-, hnone⟩ | ⟨hcc, hc'⟩⟩
      · exact nomatch hnone
      · refine ⟨⟨c', hc'⟩, ?_⟩
        rintro rfl
        exact hcc (h.unique c' c k' hc' hc)
  unique := by
    intro c₁ c₂ k' h₁ h₂
    rcases update_eq_some.mp h₁ with ⟨-, hnone⟩ | ⟨-, h₁⟩
    · exact nomatch hnone
    · rcases update_eq_some.mp h₂ with ⟨-, hnone⟩ | ⟨-, h₂⟩
      · exact nomatch hnone
      · exact h.unique c₁ c₂ k' h₁ h₂

end Registered

/-- Every claimed row is in the table, and no two parties claim rows of one key. -/
structure Claimed (key : ρ → κ) (rows : List ρ) (claim : ι → Option ρ) : Prop where
  mem : ∀ c r, claim c = some r → r ∈ rows
  unique : ∀ c c' r r', claim c = some r → claim c' = some r' → key r = key r' → c = c'

namespace Claimed

variable [DecidableEq ι] {key : ρ → κ} {rows rows' : List ρ} {claim : ι → Option ρ} {c : ι} {r : ρ}

/-- A party adds a row of a new key to the table and claims it. -/
theorem insert (h : Claimed key rows claim) (hr : ∀ r' ∈ rows, key r' ≠ key r) :
    Claimed key (rows ++ [r]) (Function.update claim c (some r)) where
  mem := by
    intro c' r' hc'
    rcases update_eq_some.mp hc' with ⟨-, hr'⟩ | ⟨-, hc'⟩
    · cases hr'
      simp
    · exact List.mem_append_left _ (h.mem c' r' hc')
  unique := by
    intro c₁ c₂ r₁ r₂ h₁ h₂ hkey
    rcases update_eq_some.mp h₁ with ⟨rfl, hr₁⟩ | ⟨-, hold₁⟩ <;>
      rcases update_eq_some.mp h₂ with ⟨rfl, hr₂⟩ | ⟨-, hold₂⟩
    · rfl
    · cases hr₁
      exact absurd hkey.symm (hr _ (h.mem _ _ hold₂))
    · cases hr₂
      exact absurd hkey (hr _ (h.mem _ _ hold₁))
    · exact h.unique c₁ c₂ r₁ r₂ hold₁ hold₂ hkey

/-- A party gives its claim up. Rows of other keys stay in the table. -/
theorem release (h : Claimed key rows claim)
    (hrows : ∀ r' ∈ rows, (∀ r, claim c = some r → key r' ≠ key r) → r' ∈ rows') :
    Claimed key rows' (Function.update claim c none) where
  mem := by
    intro c' r' hc'
    rcases update_eq_some.mp hc' with ⟨-, hnone⟩ | ⟨hcc, hc'⟩
    · exact nomatch hnone
    · exact hrows r' (h.mem c' r' hc') fun r hr heq => hcc (h.unique c' c r' r hc' hr heq)
  unique := by
    intro c₁ c₂ r₁ r₂ h₁ h₂
    rcases update_eq_some.mp h₁ with ⟨-, hnone⟩ | ⟨-, h₁⟩
    · exact nomatch hnone
    · rcases update_eq_some.mp h₂ with ⟨-, hnone⟩ | ⟨-, h₂⟩
      · exact nomatch hnone
      · exact h.unique c₁ c₂ r₁ r₂ h₁ h₂

end Claimed

end Interaction
