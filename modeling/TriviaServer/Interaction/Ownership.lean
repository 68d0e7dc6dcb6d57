import Mathlib.Logic.Function.Basic
import TriviaServer.Interaction.Register

/-! # Keys that are owned

The keys present are those owned, each by one party. Parties take unused keys, hand them on
and free them. -/

namespace Interaction

variable {ι κ : Type}

structure Owned (present : κ → Prop) (owner : ι → Option κ) : Prop where
  present_iff : ∀ k, present k ↔ ∃ c, owner c = some k
  unique : ∀ c c' k, owner c = some k → owner c' = some k → c = c'

namespace Owned

variable {present present' : κ → Prop} {owner owner' : ι → Option κ} {c c' : ι} {k : κ}

theorem mem (h : Owned present owner) (hc : owner c = some k) : present k :=
  (h.present_iff k).mpr ⟨c, hc⟩

theorem congr (h : Owned present owner) (ho : owner' = owner)
    (hp : ∀ k, present' k ↔ present k) : Owned present' owner' where
  present_iff k := by
    rw [hp, h.present_iff, ho]
  unique := ho ▸ h.unique

variable [DecidableEq ι]

/-- A party without a key takes one that is not present. -/
theorem take (h : Owned present owner) (hk : ¬ present k) (hc : owner c = none)
    (hp : ∀ k', present' k' ↔ k' = k ∨ present k') :
    Owned present' (Function.update owner c (some k)) where
  present_iff := by
    intro k'
    simp only [hp, h.present_iff, update_eq_some]
    constructor
    · rintro (rfl | ⟨c', hc'⟩)
      · exact ⟨c, .inl ⟨rfl, rfl⟩⟩
      · refine ⟨c', .inr ⟨?_, hc'⟩⟩
        rintro rfl
        simp [hc] at hc'
    · rintro ⟨c', ⟨-, hk'⟩ | ⟨-, hc'⟩⟩
      · exact .inl (Option.some.inj hk').symm
      · exact .inr ⟨c', hc'⟩
  unique := by
    intro c₁ c₂ k' h₁ h₂
    rcases update_eq_some.mp h₁ with ⟨rfl, hk₁⟩ | ⟨-, hold₁⟩ <;>
      rcases update_eq_some.mp h₂ with ⟨rfl, hk₂⟩ | ⟨-, hold₂⟩
    · rfl
    · exact absurd (h.mem hold₂) (Option.some.inj hk₁ ▸ hk)
    · exact absurd (h.mem hold₁) (Option.some.inj hk₂ ▸ hk)
    · exact h.unique c₁ c₂ k' hold₁ hold₂

/-- A party frees its key. -/
theorem free (h : Owned present owner) (hc : owner c = some k)
    (hp : ∀ k', present' k' ↔ k' ≠ k ∧ present k') :
    Owned present' (Function.update owner c none) where
  present_iff := by
    intro k'
    simp only [hp, h.present_iff, update_eq_some]
    constructor
    · rintro ⟨hne, c', hc'⟩
      refine ⟨c', .inr ⟨?_, hc'⟩⟩
      rintro rfl
      exact hne (Option.some.inj (hc'.symm.trans hc))
    · rintro ⟨c', ⟨-, hnone⟩ | ⟨hcc, hc'⟩⟩
      · cases hnone
      · refine ⟨?_, c', hc'⟩
        rintro rfl
        exact hcc (h.unique c' c k' hc' hc)
  unique := by
    intro c₁ c₂ k' h₁ h₂
    rcases update_eq_some.mp h₁ with ⟨-, hnone⟩ | ⟨-, h₁⟩
    · cases hnone
    · rcases update_eq_some.mp h₂ with ⟨-, hnone⟩ | ⟨-, h₂⟩
      · cases hnone
      · exact h.unique c₁ c₂ k' h₁ h₂

/-- A party hands its key on to one without. -/
theorem give (h : Owned present owner) (hc : owner c = some k) (hc' : owner c' = none) :
    Owned present (Function.update (Function.update owner c none) c' (some k)) := by
  have hcc : c' ≠ c := by
    rintro rfl
    simp [hc] at hc'
  have hfree := h.free hc fun k' => Iff.rfl
  refine hfree.take (fun hk => hk.1 rfl) (by simp [hcc, hc']) fun k' => ?_
  constructor
  · intro hk'
    by_cases hkk : k' = k
    · exact .inl hkk
    · exact .inr ⟨hkk, hk'⟩
  · rintro (rfl | ⟨-, hk'⟩)
    · exact h.mem hc
    · exact hk'

end Owned

end Interaction
