import TriviaServer.Verification.Expressions

/-! # The emails that are accepted

What the longest of the expressions accepts, part by part, and with it what all four do. -/

namespace TriviaServer

open Computability Regex

/-! ## The parts of an email -/

def IsLabelEnd (c : Char) : Prop := ('a' ≤ c ∧ c ≤ 'z') ∨ c.isDigit = true

theorem IsLabelEnd.ne_hyphen {c : Char} (h : IsLabelEnd c) : c ≠ '-' := by
  rintro rfl
  unfold IsLabelEnd at h
  exact absurd h (by decide)

/-- A character of ASCII other than the null character and a few more. -/
def AsciiBut (others : List Char) (c : Char) : Prop :=
  1 ≤ c.toNat ∧ c.toNat ≤ 127 ∧ c ∉ others

/-- Letters, digits and special characters, at least one of them. -/
structure Atom (text : List Char) : Prop where
  ne_nil : text ≠ []
  chars : ∀ c ∈ text, IsLabelEnd c ∨ c ∈ Validator.atomSpecials

/-- Letters, digits and hyphens, but no hyphen at the end. -/
structure Tag (text : List Char) : Prop where
  ne_nil : text ≠ []
  chars : ∀ c ∈ text, IsLabelEnd c ∨ c = '-'
  last_ne : text.getLast? ≠ some '-'

/-- A label of a domain has no hyphen at the front either. -/
structure DomainLabel (text : List Char) : Prop extends Tag text where
  head_ne : text.head? ≠ some '-'

/-- A character that stands for itself, or an escaped one. -/
def Piece (special : List Char) (text : List Char) : Prop :=
  (∃ c, text = [c] ∧ AsciiBut special c) ∨ ∃ c, text = ['\x5c', c] ∧ AsciiBut ['\n', '\r'] c

/-- A number up to 255, perhaps with leading zeros. -/
structure PaddedOctet (text : List Char) : Prop extends Digits 1 3 text where
  le : Validator.stoi text ≤ 255

/-- The end of an address in brackets: a number, or something tagged. -/
inductive Host : List Char → Prop
  | octet {text} : PaddedOctet text → Host text
  | tagged {tag} {pieces : List (List Char)} : Tag tag → pieces ≠ [] →
      (∀ p ∈ pieces, Piece ['\t', '\n', '\r', ' '] p) → Host (tag ++ ':' :: pieces.flatten)

inductive LocalPart : List Char → Prop
  | atoms {text} : Separated ['.'] Atom 1 text → LocalPart text
  | quoted {pieces : List (List Char)} :
      (∀ p ∈ pieces, Piece ['\t', '\n', '\r', ' ', '\x22', '\x5c'] p) →
      LocalPart (['\x22'] ++ pieces.flatten ++ ['\x22'])

inductive Domain : List Char → Prop
  | labels {text} : Separated ['.'] DomainLabel 2 text → Domain text
  | bracketed {octets : List (List Char)} {host} : octets.length = 3 →
      (∀ o ∈ octets, PaddedOctet o) → Host host →
      Domain (['['] ++ (octets.map (· ++ ['.'])).flatten ++ host ++ [']'])

/-- What the expression accepts. -/
def EmailAddress (text : List Char) : Prop :=
  ∃ localPart domain, LocalPart localPart ∧ Domain domain ∧ text = localPart ++ ['@'] ++ domain

namespace Validator

variable {n : ℕ} {text : List Char}

/-! ## Atoms and labels -/

theorem agree_atom : AgreeUpTo n (atomChar.repeated 1 n).language (texts Atom) := by
  intro text htext
  refine (((AgreeUpTo.refl _).repeated 1 text htext).trans mem_letter_pow_mul_star).trans ?_
  simp only [Bool.or_eq_true, Bool.and_eq_true, decide_eq_true_eq, Nat.one_le_iff_ne_zero, ne_eq,
    List.length_eq_zero_iff, List.contains_iff_mem]
  exact ⟨fun h => ⟨h.1, h.2⟩, fun h => ⟨h.1, h.2⟩⟩

theorem mem_labelEnd : text ∈ labelEnd.language ↔ ∃ c, text = [c] ∧ IsLabelEnd c := by
  simp only [labelEnd, Pattern.mem_char, Bool.or_eq_true, Bool.and_eq_true, decide_eq_true_eq,
    IsLabelEnd]

theorem agree_labelChars : AgreeUpTo n (labelChar.repeated 0 n).language
    (texts fun text => ∀ c ∈ text, IsLabelEnd c ∨ c = '-') := by
  intro text htext
  refine (((AgreeUpTo.refl _).repeated 0 text htext).trans mem_letter_pow_mul_star).trans ?_
  simp only [Bool.or_eq_true, Bool.and_eq_true, decide_eq_true_eq, beq_iff_eq, Nat.zero_le,
    true_and, mem_texts, IsLabelEnd]

theorem agree_tag :
    AgreeUpTo n (Pattern.seq (labelChar.repeated 0 n) labelEnd).language (texts Tag) := by
  intro text htext
  refine (agree_labelChars.mul (.refl labelEnd.language) text htext).trans ?_
  simp only [Language.mem_mul, mem_texts, mem_labelEnd]
  constructor
  · rintro ⟨front, hfront, _, ⟨c, rfl, hc⟩, rfl⟩
    refine ⟨by simp, ?_, by simpa using hc.ne_hyphen⟩
    intro c' hc'
    rcases List.mem_append.mp hc' with hc' | hc'
    · exact hfront c' hc'
    · rw [List.mem_singleton.mp hc']
      exact .inl hc
  · rintro ⟨hne, hchars, hlast⟩
    obtain ⟨front, c, rfl⟩ := (List.eq_nil_or_concat text).resolve_left hne
    rw [List.concat_eq_append] at hchars hlast ⊢
    have hc := (hchars c (by simp)).resolve_right (by simpa using hlast)
    exact ⟨front, fun c' hc' => hchars c' (List.mem_append_left _ hc'), _, ⟨c, rfl, hc⟩, rfl⟩

theorem agree_label : AgreeUpTo n (labelRegex n).language (texts DomainLabel) := by
  intro text htext
  refine ((AgreeUpTo.refl labelEnd.language).mul agree_tag.optional text htext).trans ?_
  simp only [Language.mem_mul, Language.mem_add, Language.mem_one, mem_texts, mem_labelEnd]
  constructor
  · rintro ⟨_, ⟨c, rfl, hc⟩, rest, rfl | hrest, rfl⟩
    · exact ⟨⟨by simp, by simpa using .inl hc, by simpa using hc.ne_hyphen⟩,
        by simpa using hc.ne_hyphen⟩
    · refine ⟨⟨by simp, List.forall_mem_cons.mpr ⟨.inl hc, hrest.chars⟩, ?_⟩,
        by simpa using hc.ne_hyphen⟩
      rw [List.singleton_append, List.getLast?_cons_of_ne_nil hrest.ne_nil]
      exact hrest.last_ne
  · rintro ⟨⟨hne, hchars, hlast⟩, hhead⟩
    obtain ⟨c, rest, rfl⟩ := List.exists_cons_of_ne_nil hne
    obtain ⟨hc, hrest⟩ := List.forall_mem_cons.mp hchars
    refine ⟨[c], ⟨c, rfl, hc.resolve_right (by simpa using hhead)⟩, rest, ?_, rfl⟩
    by_cases hnil : rest = []
    · exact .inl hnil
    · rw [List.getLast?_cons_of_ne_nil hnil] at hlast
      exact .inr ⟨hnil, hrest, hlast⟩

/-! ## Quotations and tags -/

theorem mem_codes {ranges : List (ℕ × ℕ)} {others : List Char}
    (h : ∀ c : Char, (ranges.any fun range => range.1 ≤ c.toNat && c.toNat ≤ range.2) = true ↔
      AsciiBut others c) :
    text ∈ (codes ranges).language ↔ ∃ c, text = [c] ∧ AsciiBut others c := by
  simp only [codes, Pattern.mem_char, h]

theorem mem_escapedChar :
    text ∈ escapedChar.language ↔ ∃ c, text = ['\x5c', c] ∧ AsciiBut ['\n', '\r'] c := by
  have hcodes {text : List Char} : text ∈ (codes [(0x01, 0x09), (0x0b, 0x0b), (0x0c, 0x0c),
      (0x0e, 0x7f)]).language ↔ ∃ c, text = [c] ∧ AsciiBut ['\n', '\r'] c := by
    apply mem_codes
    intro c
    simp only [AsciiBut, List.any_cons, List.any_nil, Bool.or_false, Bool.or_eq_true,
      Bool.and_eq_true, decide_eq_true_eq, List.mem_cons, List.not_mem_nil, or_false, not_or,
      ← Char.toNat_inj, Char.reduceToNat]
    omega
  simp only [escapedChar, Pattern.mem_seq, mem_single, hcodes]
  constructor
  · rintro ⟨_, rfl, _, ⟨c, rfl, hc⟩, rfl⟩
    exact ⟨c, rfl, hc⟩
  · rintro ⟨c, rfl, hc⟩
    exact ⟨_, rfl, _, ⟨c, rfl, hc⟩, rfl⟩

theorem mem_quotedChar :
    text ∈ quotedChar.language ↔ Piece ['\t', '\n', '\r', ' ', '\x22', '\x5c'] text := by
  rw [quotedChar, Pattern.mem_alt, mem_escapedChar]
  refine or_congr_left (mem_codes fun c => ?_)
  simp only [AsciiBut, List.any_cons, List.any_nil, Bool.or_false, Bool.or_eq_true,
    Bool.and_eq_true, decide_eq_true_eq, List.mem_cons, List.not_mem_nil, or_false, not_or,
    ← Char.toNat_inj, Char.reduceToNat]
  omega

theorem mem_taggedChar :
    text ∈ taggedChar.language ↔ Piece ['\t', '\n', '\r', ' '] text := by
  rw [taggedChar, Pattern.mem_alt, mem_escapedChar]
  refine or_congr_left (mem_codes fun c => ?_)
  simp only [AsciiBut, List.any_cons, List.any_nil, Bool.or_false, Bool.or_eq_true,
    Bool.and_eq_true, decide_eq_true_eq, List.mem_cons, List.not_mem_nil, or_false, not_or,
    ← Char.toNat_inj, Char.reduceToNat]
  omega

/-- At least so many pieces. -/
theorem agree_pieces {r : Pattern Char} {special : List Char}
    (hr : ∀ text, text ∈ r.language ↔ Piece special text) (least : ℕ) :
    AgreeUpTo n (r.repeated least n).language (texts fun text =>
      ∃ pieces : List (List Char), least ≤ pieces.length ∧ (∀ p ∈ pieces, Piece special p) ∧
        text = pieces.flatten) := by
  intro text htext
  refine (((AgreeUpTo.refl _).repeated least text htext).trans mem_pow_mul_star).trans ?_
  simp only [hr, mem_texts]

/-! ## Numbers up to 255 -/

theorem mem_digitRange {last : Char} :
    text ∈ (range '0' last).language ↔ ∃ c, text = [c] ∧ 48 ≤ c.toNat ∧ c.toNat ≤ last.toNat := by
  have hle (a b : Char) : a ≤ b ↔ a.toNat ≤ b.toNat := UInt32.le_iff_toNat_le
  simp only [range, Pattern.mem_char, Bool.and_eq_true, decide_eq_true_eq, hle, Char.reduceToNat]

theorem mem_zeroOne :
    text ∈ (oneOf "01").language ↔ ∃ c, text = [c] ∧ 48 ≤ c.toNat ∧ c.toNat ≤ 49 := by
  simp only [oneOf, Pattern.mem_char, List.contains_iff_mem]
  refine exists_congr fun c => and_congr_right fun _ => ?_
  change c ∈ ['0', '1'] ↔ _
  simp only [List.mem_cons, List.not_mem_nil, or_false, ← Char.toNat_inj, Char.reduceToNat]
  omega

theorem paddedOctet_iff : PaddedOctet text ↔ (∀ c ∈ text, 48 ≤ c.toNat ∧ c.toNat ≤ 57) ∧
    1 ≤ text.length ∧ text.length ≤ 3 ∧ stoi text ≤ 255 := by
  have hdigits : (∀ c ∈ text, c.isDigit = true) ↔ ∀ c ∈ text, 48 ≤ c.toNat ∧ c.toNat ≤ 57 := by
    simp only [Char.isDigit_iff_toNat, Char.reduceToNat]
  rw [← hdigits]
  exact ⟨fun h => ⟨h.isDigit, h.least_le, h.le_most, h.le⟩,
    fun h => ⟨⟨h.1, h.2.1, h.2.2.1⟩, h.2.2.2⟩⟩

theorem paddedOctet_one {a : Char} : PaddedOctet [a] ↔ 48 ≤ a.toNat ∧ a.toNat ≤ 57 := by
  rw [paddedOctet_iff, show stoi [a] = a.toNat - 48 by simp [stoi, Nat.ofDigitChars]]
  simp only [List.forall_mem_singleton, List.length_singleton]
  omega

theorem paddedOctet_two {a b : Char} : PaddedOctet [a, b] ↔
    (48 ≤ a.toNat ∧ a.toNat ≤ 57) ∧ 48 ≤ b.toNat ∧ b.toNat ≤ 57 := by
  rw [paddedOctet_iff, show stoi [a, b] = 10 * (a.toNat - 48) + (b.toNat - 48) by
    simp [stoi, Nat.ofDigitChars]]
  simp only [List.mem_cons, List.not_mem_nil, or_false, forall_eq_or_imp, forall_eq,
    List.length_cons, List.length_nil]
  omega

theorem paddedOctet_three {a b c : Char} : PaddedOctet [a, b, c] ↔
    (48 ≤ a.toNat ∧ a.toNat ≤ 57) ∧ (48 ≤ b.toNat ∧ b.toNat ≤ 57) ∧
      (48 ≤ c.toNat ∧ c.toNat ≤ 57) ∧
      100 * (a.toNat - 48) + 10 * (b.toNat - 48) + (c.toNat - 48) ≤ 255 := by
  rw [paddedOctet_iff, show stoi [a, b, c] =
    10 * (10 * (a.toNat - 48) + (b.toNat - 48)) + (c.toNat - 48) by simp [stoi, Nat.ofDigitChars]]
  simp only [List.mem_cons, List.not_mem_nil, or_false, forall_eq_or_imp, forall_eq,
    List.length_cons, List.length_nil]
  omega

theorem mem_paddedOctet : text ∈ emailOctetRegex.language ↔ PaddedOctet text := by
  simp only [emailOctetRegex, Pattern.mem_alt, Pattern.mem_seq, mem_literal, mem_single,
    mem_optional, mem_digitRange, mem_zeroOne, Char.reduceToNat]
  have htwo : '2'.toNat = 50 := rfl
  have hfive : '5'.toNat = 53 := rfl
  constructor
  · rintro (⟨_, rfl, _, ⟨c, rfl, hc⟩, rfl⟩ |
      ⟨_, rfl, _, ⟨_, ⟨b, rfl, hb⟩, _, ⟨c, rfl, hc⟩, rfl⟩, rfl⟩ |
      ⟨_, rfl | ⟨a, rfl, ha⟩, _, ⟨_, ⟨b, rfl, hb⟩, _, rfl | ⟨c, rfl, hc⟩, rfl⟩, rfl⟩)
    · exact paddedOctet_three (a := '2') (b := '5').mpr (by omega)
    · exact paddedOctet_three (a := '2').mpr (by omega)
    · exact paddedOctet_one.mpr hb
    · exact paddedOctet_two.mpr ⟨hb, hc⟩
    · exact paddedOctet_two.mpr (by omega)
    · exact paddedOctet_three.mpr (by omega)
  · intro hoctet
    rcases text with _ | ⟨a, _ | ⟨b, _ | ⟨c, _ | ⟨d, rest⟩⟩⟩⟩
    · exact absurd hoctet.least_le (by simp)
    · have ha := paddedOctet_one.mp hoctet
      exact .inr (.inr ⟨[], .inl rfl, _, ⟨_, ⟨a, rfl, ha⟩, [], .inl rfl, rfl⟩, rfl⟩)
    · obtain ⟨ha, hb⟩ := paddedOctet_two.mp hoctet
      exact .inr (.inr ⟨[], .inl rfl, _, ⟨_, ⟨a, rfl, ha⟩, _, .inr ⟨b, rfl, hb⟩, rfl⟩, rfl⟩)
    · obtain ⟨ha, hb, hc, hle⟩ := paddedOctet_three.mp hoctet
      by_cases hhundreds : a.toNat ≤ 49
      · exact .inr (.inr ⟨_, .inr ⟨a, rfl, ha.1, hhundreds⟩, _,
          ⟨_, ⟨b, rfl, hb⟩, _, .inr ⟨c, rfl, hc⟩, rfl⟩, rfl⟩)
      obtain rfl : a = '2' := Char.toNat_inj.mp (by omega)
      by_cases htens : b.toNat ≤ 52
      · exact .inr (.inl ⟨_, rfl, _, ⟨_, ⟨b, rfl, hb.1, htens⟩, _, ⟨c, rfl, hc⟩, rfl⟩, rfl⟩)
      obtain rfl : b = '5' := Char.toNat_inj.mp (by omega)
      exact .inl ⟨_, rfl, _, ⟨c, rfl, hc.1, by omega⟩, rfl⟩
    · exact absurd hoctet.le_most (by simp)

/-! ## Both sides of an email -/

theorem agree_localPart : AgreeUpTo n (localPartRegex n).language (texts LocalPart) := by
  have hdot := AgreeUpTo.refl (n := n) (single '.').language
  have hquote := AgreeUpTo.refl (n := n) (single '\x22').language
  have hrest : AgreeUpTo n (Pattern.seq (single '.') (atomChar.repeated 1 n)).language _ :=
    hdot.mul agree_atom
  have hagree := (agree_atom.mul (hrest.repeated 0)).add
    (hquote.mul ((agree_pieces (fun _ => mem_quotedChar) 0).mul hquote))
  intro text htext
  refine (hagree text htext).trans ?_
  rw [Language.mem_add, pow_zero, one_mul, mul_star_separated, language_single,
    ← one_mul (_∗), ← pow_zero, mem_separated_star]
  simp only [Language.mem_mul, mem_texts, mem_single]
  constructor
  · rintro (hatoms | ⟨_, rfl, _, ⟨_, ⟨pieces, -, hpieces, rfl⟩, _, rfl, rfl⟩, rfl⟩)
    · exact .atoms hatoms
    · exact .quoted hpieces
  · rintro (hatoms | hpieces)
    · exact .inl hatoms
    · exact .inr ⟨_, rfl, _, ⟨_, ⟨_, Nat.zero_le _, hpieces, rfl⟩, _, rfl, rfl⟩, rfl⟩

theorem agree_host : AgreeUpTo n (Pattern.alt emailOctetRegex (.seq (labelChar.repeated 0 n)
    (.seq labelEnd (.seq (single ':') (taggedChar.repeated 1 n))))).language (texts Host) := by
  have hcolon := AgreeUpTo.refl (n := n) (single ':').language
  have hagree := agree_tag.mul (hcolon.mul (agree_pieces (n := n) (fun _ => mem_taggedChar) 1))
  rw [Pattern.language, Pattern.language, mul_assoc] at hagree
  intro text htext
  refine ((AgreeUpTo.refl emailOctetRegex.language).add hagree text htext).trans ?_
  simp only [Language.mem_add, Language.mem_mul, mem_texts, mem_single, mem_paddedOctet]
  constructor
  · rintro (hoctet | ⟨tag, htag, _, ⟨_, rfl, _, ⟨pieces, hne, hpieces, rfl⟩, rfl⟩, rfl⟩)
    · exact .octet hoctet
    · exact .tagged htag (List.ne_nil_of_length_pos hne) hpieces
  · rintro (hoctet | ⟨htag, hne, hpieces⟩)
    · exact .inl hoctet
    · exact .inr ⟨_, htag, _, ⟨_, rfl, _, ⟨_, List.length_pos_of_ne_nil hne, hpieces, rfl⟩, rfl⟩,
        rfl⟩

theorem mem_octets {k : ℕ} : text ∈ (Pattern.seq emailOctetRegex (single '.')).language ^ k ↔
    ∃ octets : List (List Char), octets.length = k ∧ (∀ o ∈ octets, PaddedOctet o) ∧
      text = (octets.map (· ++ ['.'])).flatten := by
  induction k generalizing text with
  | zero =>
      rw [pow_zero, Language.mem_one]
      constructor
      · rintro rfl
        exact ⟨[], rfl, by simp, rfl⟩
      · rintro ⟨octets, hlength, -, rfl⟩
        rw [List.eq_nil_of_length_eq_zero hlength]
        rfl
  | succ k ih =>
      rw [pow_succ', Language.mem_mul]
      simp only [ih, Pattern.mem_seq, mem_paddedOctet, mem_single]
      constructor
      · rintro ⟨_, ⟨o, ho, _, rfl, rfl⟩, _, ⟨octets, hlength, hoctets, rfl⟩, rfl⟩
        exact ⟨o :: octets, congrArg (· + 1) hlength, List.forall_mem_cons.mpr ⟨ho, hoctets⟩, rfl⟩
      · rintro ⟨octets, hlength, hoctets, rfl⟩
        obtain ⟨o, octets, rfl⟩ := List.exists_cons_of_length_eq_add_one hlength
        obtain ⟨ho, hoctets⟩ := List.forall_mem_cons.mp hoctets
        exact ⟨_, ⟨o, ho, _, rfl, rfl⟩, _, ⟨octets, Nat.succ.inj hlength, hoctets, rfl⟩, rfl⟩

theorem agree_domain : AgreeUpTo n (domainRegex n).language (texts Domain) := by
  have hdot := AgreeUpTo.refl (n := n) (single '.').language
  have hopen := AgreeUpTo.refl (n := n) (single '[').language
  have hclose := AgreeUpTo.refl (n := n) (single ']').language
  have hfirst : AgreeUpTo n (Pattern.seq (labelRegex n) (single '.')).language _ :=
    agree_label.mul hdot
  have hoctet : AgreeUpTo n (Pattern.seq emailOctetRegex (single '.')).language _ := .refl _
  have hagree := ((hfirst.repeated 1).mul agree_label).add
    (hopen.mul ((hoctet.exactly 3).mul (agree_host.mul hclose)))
  intro text htext
  refine (hagree text htext).trans ?_
  rw [Language.mem_add, language_single '.', mem_separated_star]
  simp only [Language.mem_mul, mem_octets, mem_texts, mem_single]
  constructor
  · rintro (hlabels | ⟨_, rfl, _, ⟨_, ⟨octets, hlength, hoctets, rfl⟩, _,
      ⟨host, hhost, _, rfl, rfl⟩, rfl⟩, rfl⟩)
    · exact .labels hlabels
    · simpa using Domain.bracketed hlength hoctets hhost
  · rintro (hlabels | ⟨hlength, hoctets, hhost⟩)
    · exact .inl hlabels
    · exact .inr ⟨_, rfl, _, ⟨_, ⟨_, hlength, hoctets, rfl⟩, _, ⟨_, hhost, _, rfl, rfl⟩, rfl⟩,
        by simp⟩

theorem matchesEmail_iff :
    ((emailRegex text.length).regexMatch text).isSome = true ↔ EmailAddress text := by
  have hat := AgreeUpTo.refl (n := text.length) (single '@').language
  have hagree := agree_localPart.mul (hat.mul agree_domain)
  rw [emailRegex, Pattern.regexMatch_iff]
  · refine (hagree text (Nat.le_refl _)).trans ?_
    simp only [Language.mem_mul, mem_texts, mem_single]
    constructor
    · rintro ⟨localPart, hlocal, _, ⟨_, rfl, domain, hdomain, rfl⟩, rfl⟩
      exact ⟨localPart, domain, hlocal, hdomain, by simp⟩
    · rintro ⟨localPart, domain, hlocal, hdomain, rfl⟩
      exact ⟨localPart, hlocal, _, ⟨_, rfl, domain, hdomain, rfl⟩, by simp⟩
  · simp [Pattern.Plain, localPartRegex, atomChar, quotedChar, escapedChar, codes, single,
      domainRegex, labelRegex, labelEnd, labelChar, Pattern.optional, emailOctetRegex,
      literal_plain, range, oneOf, taggedChar]

theorem regexMatch_password {text : String} :
    regexMatch .password text = true ↔ StrongPassword text.toByteArray.data.toList :=
  matchesPassword_iff _

theorem regexMatch_email {text : String} :
    regexMatch .email text = true ↔ EmailAddress text.toList := by
  rw [regexMatch, ← String.length_toList]
  exact matchesEmail_iff

theorem regexMatch_address {text : String} : regexMatch .address text = true ↔
    ∃ street apartment city, StreetAddress street apartment city text.toList := by
  rw [regexMatch, ← String.length_toList]
  exact matchesAddress_iff

theorem regexMatch_phoneNumber {text : String} :
    regexMatch .phoneNumber text = true ↔ PhoneNumber text.toList := by
  rw [regexMatch]
  exact matchesPhoneNumber_iff

end Validator

/-! ## All expressions -/

/-- The form of the texts that an expression stands for. -/
def RegexValidator.Describes : RegexValidator → String → Prop
  | .password, text => StrongPassword text.toByteArray.data.toList
  | .email, text => EmailAddress text.toList
  | .address, text => ∃ street apartment city, StreetAddress street apartment city text.toList
  | .phoneNumber, text => PhoneNumber text.toList

/-- A text matches one of the expressions if and only if it has the form. -/
theorem expressions_describe (validator : RegexValidator) (text : String) :
    Validator.regexMatch validator text = true ↔ validator.Describes text := by
  cases validator with
  | password => exact Validator.regexMatch_password
  | email => exact Validator.regexMatch_email
  | address => exact Validator.regexMatch_address
  | phoneNumber => exact Validator.regexMatch_phoneNumber

end TriviaServer
