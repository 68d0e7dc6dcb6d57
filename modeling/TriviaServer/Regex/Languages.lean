import Mathlib.Algebra.BigOperators.Group.List.Basic
import Mathlib.Computability.Language
import TriviaServer.Regex.Spans

/-! # The languages of patterns

Without its assertions a pattern matches a text wherever it stands, and what it matches is a
language. The length of a text bounds its iterations, so that a bound beyond it is the star. -/

namespace Regex

open Computability

variable {α : Type}

/-- The texts with a property. -/
def texts (P : List α → Prop) : Language α := P

@[simp] theorem mem_texts {P : List α → Prop} {text : List α} : text ∈ texts P ↔ P text := Iff.rfl

/-- The texts of one character that is in a class. -/
def letter (p : α → Bool) : Language α := texts fun text => ∃ a, text = [a] ∧ p a = true

namespace Pattern

/-- Patterns that do not look at what is around them. -/
def Plain : Pattern α → Prop
  | empty | char _ => True
  | seq r₁ r₂ | alt r₁ r₂ => r₁.Plain ∧ r₂.Plain
  | repeated r _ _ | group _ r => r.Plain
  | start | stop | boundary _ => False

/-- The texts that are matched where every assertion holds. -/
def language : Pattern α → Language α
  | empty | start | stop | boundary _ => 1
  | char p => letter p
  | seq r₁ r₂ => r₁.language * r₂.language
  | alt r₁ r₂ => r₁.language + r₂.language
  | repeated r required more =>
      texts fun text => ∃ n, required ≤ n ∧ n ≤ required + more ∧ text ∈ r.language ^ n
  | group _ r => r.language

variable {r r₁ r₂ : Pattern α} {p : α → Bool} {seen text rest : List α}

theorem mem_char : text ∈ (char p).language ↔ ∃ a, text = [a] ∧ p a = true := Iff.rfl

theorem mem_seq : text ∈ (seq r₁ r₂).language ↔
    ∃ u ∈ r₁.language, ∃ v ∈ r₂.language, u ++ v = text := Language.mem_mul

theorem mem_alt : text ∈ (alt r₁ r₂).language ↔ text ∈ r₁.language ∨ text ∈ r₂.language :=
  Language.mem_add _ _ _

theorem mem_group {index : ℕ} : text ∈ (group index r).language ↔ text ∈ r.language := Iff.rfl

theorem iterated_iff {M : List α → List α → List α → Prop} {l : Language α}
    (h : ∀ seen text rest, M seen text rest ↔ text ∈ l) {n : ℕ} :
    Iterated M n seen text rest ↔ text ∈ l ^ n := by
  induction n generalizing seen text with
  | zero => simp [Iterated]
  | succ n ih =>
      simp only [Iterated, h, ih, pow_succ', Language.mem_mul]
      constructor
      · rintro ⟨u, v, rfl, hu, hv⟩
        exact ⟨u, hu, v, hv, rfl⟩
      · rintro ⟨u, hu, v, hv, rfl⟩
        exact ⟨u, v, rfl, hu, hv⟩

/-- A plain pattern matches the texts of its language. -/
theorem spans_iff (hr : r.Plain) : r.Spans seen text rest ↔ text ∈ r.language := by
  induction r generalizing seen text rest with
  | empty => simp [Spans, language]
  | char p => exact Iff.rfl
  | seq r₁ r₂ ih₁ ih₂ =>
      simp only [Spans, ih₁ hr.1, ih₂ hr.2, language, Language.mem_mul]
      constructor
      · rintro ⟨u, v, rfl, hu, hv⟩
        exact ⟨u, hu, v, hv, rfl⟩
      · rintro ⟨u, hu, v, hv, rfl⟩
        exact ⟨u, v, rfl, hu, hv⟩
  | alt r₁ r₂ ih₁ ih₂ => simp only [Spans, ih₁ hr.1, ih₂ hr.2, language, Language.mem_add]
  | repeated r required more ih =>
      have hr' (seen text rest : List α) : r.Spans seen text rest ↔ text ∈ r.language := ih hr
      simp only [Spans, iterated_iff hr', language, mem_texts]
  | group index r ih => exact ih hr
  | start | stop | boundary => exact hr.elim

/-- A text matches as a whole exactly if it is in the language. -/
theorem regexMatch_iff (hr : r.Plain) :
    (r.regexMatch text).isSome = true ↔ text ∈ r.language := by
  rw [regexMatch_isSome_iff, spans_iff hr]

/-- `^` and `$` around a whole text. -/
theorem regexMatch_anchored_iff (hr : r.Plain) :
    ((seq start (seq r stop)).regexMatch text).isSome = true ↔ text ∈ r.language := by
  rw [regexMatch_isSome_iff]
  constructor
  · rintro ⟨_, _, rfl, ⟨rfl, -⟩, u, _, rfl, hu, rfl, -⟩
    rw [List.nil_append, List.append_nil]
    exact (spans_iff hr).mp hu
  · intro htext
    have hstop : stop.Spans (text.reverse ++ ([] : List α)) [] [] := ⟨rfl, rfl⟩
    exact ⟨[], text, rfl, ⟨rfl, rfl⟩, text, [], (List.append_nil text).symm,
      (spans_iff hr).mpr htext, hstop⟩

theorem startsWith_iff (hr : r.Plain) :
    r.startsWith text = true ↔ ∃ u v, text = u ++ v ∧ u ∈ r.language := by
  rw [startsWith, Bool.not_eq_true', List.isEmpty_eq_false_iff_exists_mem]
  constructor
  · rintro ⟨y, hy⟩
    obtain ⟨u, hreads, hu⟩ := r.run_finds.sound _ y hy
    exact ⟨u, y.rest, hreads.rest_eq, (spans_iff hr).mp hu⟩
  · rintro ⟨u, v, rfl, hu⟩
    obtain ⟨y, hy, -⟩ := r.run_finds.complete ⟨[], u ++ v, []⟩ u v rfl ((spans_iff hr).mpr hu)
    exact ⟨y, hy⟩

end Pattern

/-! ## Stars -/

variable {l l' m m' : Language α} {p q : α → Bool} {n : ℕ} {text : List α}

theorem mem_letter {a : α} : [a] ∈ letter p ↔ p a = true := by
  constructor
  · rintro ⟨_, hsingle, ha⟩
    cases hsingle
    exact ha
  · exact fun ha => ⟨a, rfl, ha⟩

theorem mem_letter_pow : text ∈ letter p ^ n ↔ text.length = n ∧ ∀ a ∈ text, p a = true := by
  have hiterated : Iterated (Pattern.char p).Spans n [] text [] ↔ text ∈ letter p ^ n :=
    Pattern.iterated_iff fun _ _ _ => Iff.rfl
  rw [← hiterated, Pattern.iterated_char]

theorem mem_letter_star : text ∈ (letter p)∗ ↔ ∀ a ∈ text, p a = true := by
  rw [Language.kstar_eq_iSup_pow, Language.mem_iSup]
  simp only [mem_letter_pow]
  constructor
  · rintro ⟨_, -, htext⟩
    exact htext
  · exact fun htext => ⟨text.length, rfl, htext⟩

/-- At least so many texts of a language. -/
theorem mem_pow_mul_star : text ∈ l ^ n * l∗ ↔ ∃ parts : List (List α), n ≤ parts.length ∧
    (∀ part ∈ parts, part ∈ l) ∧ text = parts.flatten := by
  rw [Language.kstar_eq_iSup_pow, Language.mul_iSup, Language.mem_iSup]
  simp only [← pow_add, Language.mem_pow]
  constructor
  · rintro ⟨m, parts, rfl, hlength, hparts⟩
    exact ⟨parts, by omega, hparts, rfl⟩
  · rintro ⟨parts, hlength, hparts, rfl⟩
    exact ⟨parts.length - n, parts, rfl, by omega, hparts⟩

/-- At least so many characters of a class. -/
theorem mem_letter_pow_mul_star :
    text ∈ letter p ^ n * (letter p)∗ ↔ n ≤ text.length ∧ ∀ a ∈ text, p a = true := by
  rw [Language.mem_mul]
  constructor
  · rintro ⟨u, hu, v, hv, rfl⟩
    obtain ⟨rfl, hall⟩ := mem_letter_pow.mp hu
    refine ⟨by simp, fun a ha => ?_⟩
    rcases List.mem_append.mp ha with ha | ha
    · exact hall a ha
    · exact mem_letter_star.mp hv a ha
  · rintro ⟨hlength, htext⟩
    refine ⟨text.take n, mem_letter_pow.mpr ⟨by simpa using hlength, ?_⟩, text.drop n,
      mem_letter_star.mpr ?_, List.take_append_drop n text⟩
    · exact fun a ha => htext a (List.mem_of_mem_take ha)
    · exact fun a ha => htext a (List.mem_of_mem_drop ha)

/-! ## Fixed texts -/

section Texts

variable {text : List Char}

theorem mem_single {c : Char} : text ∈ (single c).language ↔ text = [c] := by
  constructor
  · rintro ⟨a, rfl, ha⟩
    rw [eq_of_beq ha]
  · rintro rfl
    exact ⟨c, rfl, beq_self_eq_true c⟩

theorem language_single (c : Char) : (single c).language = texts (· = [c]) :=
  Language.ext fun _ => mem_single

theorem literal_plain (fixed : String) : (literal fixed).Plain := by
  unfold literal
  induction fixed.toList with
  | nil => trivial
  | cons c chars ih => exact ⟨trivial, ih⟩

theorem mem_literal {fixed : String} :
    text ∈ (literal fixed).language ↔ text = fixed.toList := by
  unfold literal
  induction fixed.toList generalizing text with
  | nil => exact Language.mem_one text
  | cons c chars ih =>
      simp only [List.foldr_cons, Pattern.language, Language.mem_mul, mem_single, ih]
      constructor
      · rintro ⟨_, rfl, _, rfl, rfl⟩
        rfl
      · rintro rfl
        exact ⟨[c], rfl, chars, rfl, rfl⟩

end Texts

theorem mem_optional {r : Pattern α} :
    text ∈ r.optional.language ↔ text = [] ∨ text ∈ r.language := by
  constructor
  · rintro ⟨i, -, hi, hmem⟩
    obtain rfl | rfl : i = 0 ∨ i = 1 := by omega
    · exact .inl hmem
    · exact .inr (by simpa using hmem)
  · rintro (rfl | hmem)
    · exact ⟨0, by omega, by omega, rfl⟩
    · exact ⟨1, by omega, by omega, by simpa using hmem⟩

theorem mem_exactly {r : Pattern α} {k : ℕ} :
    text ∈ (r.repeated k 0).language ↔ text ∈ r.language ^ k := by
  constructor
  · rintro ⟨i, hle, hge, hmem⟩
    exact Nat.le_antisymm hle hge ▸ hmem
  · exact fun hmem => ⟨k, Nat.le_refl k, Nat.le_refl k, hmem⟩

/-! ## Separated texts -/

/-- Texts of a language, with a separator between any two of them. -/
theorem mem_separated {sep : List α} :
    text ∈ (l * texts (· = sep)) ^ n * l ↔ ∃ parts : List (List α), parts.length = n + 1 ∧
      (∀ part ∈ parts, part ∈ l) ∧ text = sep.intercalate parts := by
  induction n generalizing text with
  | zero =>
      rw [pow_zero, one_mul]
      constructor
      · exact fun htext => ⟨[text], rfl, by simpa using htext, by simp⟩
      · rintro ⟨parts, hlength, hparts, rfl⟩
        obtain ⟨part, rfl⟩ := List.length_eq_one_iff.mp hlength
        simpa using hparts
  | succ n ih =>
      rw [pow_succ', mul_assoc, mul_assoc]
      constructor
      · rintro ⟨part, hpart, _, ⟨_, rfl, v, hv, rfl⟩, rfl⟩
        obtain ⟨parts, hlength, hparts, rfl⟩ := ih.mp hv
        obtain ⟨part', parts, rfl⟩ := List.exists_cons_of_length_eq_add_one hlength
        exact ⟨part :: part' :: parts, by simpa using hlength,
          List.forall_mem_cons.mpr ⟨hpart, hparts⟩, by simp⟩
      · rintro ⟨parts, hlength, hparts, rfl⟩
        obtain ⟨part, parts, rfl⟩ := List.exists_cons_of_length_eq_add_one hlength
        obtain ⟨part', parts, rfl⟩ := List.exists_cons_of_length_eq_add_one (Nat.succ.inj hlength)
        obtain ⟨hpart, hparts⟩ := List.forall_mem_cons.mp hparts
        exact ⟨part, hpart, _, ⟨sep, rfl, _, ih.mpr ⟨_, Nat.succ.inj hlength, hparts, rfl⟩, rfl⟩,
          by simp⟩

/-- So many texts of a language or more, with a separator between any two of them. -/
def Separated (sep : List α) (P : List α → Prop) (least : ℕ) (text : List α) : Prop :=
  ∃ parts : List (List α), least ≤ parts.length ∧ (∀ part ∈ parts, P part) ∧
    text = sep.intercalate parts

theorem mem_separated_star {sep : List α} {P : List α → Prop} :
    text ∈ (texts P * texts (· = sep)) ^ n * (texts P * texts (· = sep))∗ * texts P ↔
      Separated sep P (n + 1) text := by
  rw [Language.kstar_eq_iSup_pow, Language.mul_iSup, Language.iSup_mul, Language.mem_iSup]
  simp only [← pow_add, mem_separated]
  constructor
  · rintro ⟨m, parts, hlength, hparts⟩
    exact ⟨parts, by omega, hparts⟩
  · rintro ⟨parts, hleast, hparts⟩
    exact ⟨parts.length - (n + 1), parts, by omega, hparts⟩

/-- The separator may as well stand before each text but the first. -/
theorem mul_star_separated (l m : Language α) : l * (m * l)∗ = (l * m)∗ * l := by
  simp only [Language.kstar_eq_iSup_pow, Language.mul_iSup, Language.iSup_mul, mul_pow_mul]

/-! ## Texts up to a length -/

theorem length_le_flatten {words : List (List α)} (h : ∀ word ∈ words, word ≠ []) :
    words.length ≤ words.flatten.length := by
  rw [List.length_flatten, ← List.length_map List.length]
  apply List.length_le_sum_of_one_le
  intro i hi
  obtain ⟨word, hword, rfl⟩ := List.mem_map.mp hi
  exact List.length_pos_of_ne_nil (h word hword)

/-- Two languages have the same texts up to a length. -/
def AgreeUpTo (n : ℕ) (l m : Language α) : Prop :=
  ∀ text : List α, text.length ≤ n → (text ∈ l ↔ text ∈ m)

namespace AgreeUpTo

theorem refl (l : Language α) : AgreeUpTo n l l := fun _ _ => Iff.rfl

theorem add (h : AgreeUpTo n l m) (h' : AgreeUpTo n l' m') : AgreeUpTo n (l + l') (m + m') :=
  fun text htext => or_congr (h text htext) (h' text htext)

theorem mul (h : AgreeUpTo n l m) (h' : AgreeUpTo n l' m') : AgreeUpTo n (l * l') (m * m') := by
  intro text htext
  simp only [Language.mem_mul]
  constructor
  · rintro ⟨u, hu, v, hv, rfl⟩
    rw [List.length_append] at htext
    exact ⟨u, (h u (by omega)).mp hu, v, (h' v (by omega)).mp hv, rfl⟩
  · rintro ⟨u, hu, v, hv, rfl⟩
    rw [List.length_append] at htext
    exact ⟨u, (h u (by omega)).mpr hu, v, (h' v (by omega)).mpr hv, rfl⟩

theorem pow (h : AgreeUpTo n l m) (k : ℕ) : AgreeUpTo n (l ^ k) (m ^ k) := by
  induction k with
  | zero => exact .refl 1
  | succ k ih =>
      rw [pow_succ', pow_succ']
      exact h.mul ih

theorem exactly {r : Pattern α} (h : AgreeUpTo n r.language m) (k : ℕ) :
    AgreeUpTo n (r.repeated k 0).language (m ^ k) :=
  fun text htext => mem_exactly.trans (h.pow k text htext)

/-- No text of the length has more iterations that read something. -/
theorem repeated {r : Pattern α} (h : AgreeUpTo n r.language m) (k : ℕ) :
    AgreeUpTo n (r.repeated k n).language (m ^ k * m∗) := by
  intro text htext
  constructor
  · rintro ⟨i, hle, -, hmem⟩
    obtain ⟨j, rfl⟩ := Nat.exists_eq_add_of_le hle
    rw [h.pow _ text htext, pow_add] at hmem
    obtain ⟨u, hu, v, hv, rfl⟩ := Language.mem_mul.mp hmem
    rw [Language.mem_mul, Language.kstar_eq_iSup_pow]
    exact ⟨u, hu, v, Language.mem_iSup.mpr ⟨j, hv⟩, rfl⟩
  · rintro ⟨u, hu, v, hv, rfl⟩
    obtain ⟨words, rfl, hwords⟩ := Language.mem_kstar_iff_exists_nonempty.mp hv
    have hlength := length_le_flatten fun word hword => (hwords word hword).2
    have hmany : words.flatten ∈ m ^ words.length :=
      Language.mem_pow.mpr ⟨words, rfl, rfl, fun word hword => (hwords word hword).1⟩
    have hsum : u.length + words.flatten.length ≤ n := by simpa using htext
    refine ⟨k + words.length, by omega, by omega, ?_⟩
    rw [h.pow _ _ htext, pow_add]
    exact Language.append_mem_mul hu hmany

theorem optional {r : Pattern α} (h : AgreeUpTo n r.language m) :
    AgreeUpTo n r.optional.language (1 + m) :=
  fun text htext => mem_optional.trans (or_congr Iff.rfl (h text htext))

end AgreeUpTo

/-- A lookahead `(?=.*p)` finds a character of the class before the end of the line. -/
theorem startsWith_any (hline : ∀ a ∈ text, q a = true) :
    (((Pattern.char q).repeated 0 text.length).seq (.char p)).startsWith text = true ↔
      ∃ a ∈ text, p a = true := by
  have hplain : (((Pattern.char q).repeated 0 text.length).seq (.char p)).Plain :=
    ⟨trivial, trivial⟩
  rw [Pattern.startsWith_iff hplain]
  have hagree (u : List α) : u.length ≤ text.length →
      (u ∈ (((Pattern.char q).repeated 0 text.length).seq (.char p)).language ↔
        u ∈ letter q ^ 0 * (letter q)∗ * letter p) :=
    ((AgreeUpTo.refl (letter q)).repeated 0).mul (.refl (letter p)) u
  constructor
  · rintro ⟨u, v, rfl, hu⟩
    obtain ⟨_, -, _, ⟨a, rfl, ha⟩, rfl⟩ := Language.mem_mul.mp ((hagree u (by simp)).mp hu)
    exact ⟨a, by simp, ha⟩
  · rintro ⟨a, hmem, ha⟩
    obtain ⟨u, v, rfl⟩ := List.append_of_mem hmem
    refine ⟨u ++ [a], v, by simp, (hagree _ (by simp)).mpr (Language.append_mem_mul ?_ ?_)⟩
    · exact mem_letter_pow_mul_star.mpr
        ⟨Nat.zero_le _, fun b hb => hline b (List.mem_append_left _ hb)⟩
    · exact mem_letter.mpr ha

end Regex
