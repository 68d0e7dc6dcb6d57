import TriviaServer.Model.Expressions
import TriviaServer.Regex.Languages
import TriviaServer.Verification.Birthdays

/-! # What the expressions of the validator accept

Each of the four expressions, in words: for every text, the match succeeds if and only if the
text is of this form. -/

namespace TriviaServer

open Computability Regex

/-! ## Passwords -/

/-- A line of eight bytes or more, one of them from each of the four classes. -/
structure StrongPassword (text : List UInt8) : Prop where
  length : 8 ≤ text.length
  upper : ∃ b ∈ text, 'A'.toUInt8 ≤ b ∧ b ≤ 'Z'.toUInt8
  lower : ∃ b ∈ text, 'a'.toUInt8 ≤ b ∧ b ≤ 'z'.toUInt8
  digit : ∃ b ∈ text, '0'.toUInt8 ≤ b ∧ b ≤ '9'.toUInt8
  special : ∃ c ∈ ['*', '&', '^', '%', '$', '#', '@', '!'], c.toUInt8 ∈ text
  line : ∀ b ∈ text, b ≠ '\n'.toUInt8 ∧ b ≠ '\r'.toUInt8

namespace Validator

theorem matchesPassword_iff (text : List UInt8) :
    matchesPassword text = true ↔ StrongPassword text := by
  have hplain : (anyByte.repeated 8 text.length).Plain := trivial
  have hall : text ∈ (anyByte.repeated 8 text.length).language ↔
      8 ≤ text.length ∧ ∀ b ∈ text, (b != '\n'.toUInt8 && b != '\r'.toUInt8) = true :=
    ((AgreeUpTo.refl _).repeated 8 text (Nat.le_refl _)).trans mem_letter_pow_mul_star
  rw [matchesPassword, Bool.and_eq_true, Pattern.regexMatch_iff hplain, hall]
  -- the lookaheads reach over the whole text, because the rest of the expression asks for a line
  have hahead (hline : ∀ b ∈ text, (b != '\n'.toUInt8 && b != '\r'.toUInt8) = true)
      (p : UInt8 → Bool) : ((anyByte.repeated 0 text.length).seq (.char p)).startsWith text = true ↔
        ∃ b ∈ text, p b = true := startsWith_any hline
  constructor
  · rintro ⟨haheads, hlength, hline⟩
    simp only [passwordLookaheads, byteRange, specialByte, List.all_cons, List.all_nil,
      Bool.and_true, Bool.and_eq_true, hahead hline, decide_eq_true_eq,
      List.contains_iff_mem] at haheads
    obtain ⟨hupper, hlower, hdigit, _, hmem, hspecial⟩ := haheads
    obtain ⟨c, hc, rfl⟩ := List.mem_map.mp hspecial
    exact ⟨hlength, hupper, hlower, hdigit, ⟨c, hc, hmem⟩, by simpa using hline⟩
  · rintro ⟨hlength, hupper, hlower, hdigit, ⟨c, hc, hmem⟩, hline⟩
    have hline' : ∀ b ∈ text, (b != '\n'.toUInt8 && b != '\r'.toUInt8) = true := by
      simpa using hline
    refine ⟨?_, hlength, hline'⟩
    simp only [passwordLookaheads, byteRange, specialByte, List.all_cons, List.all_nil,
      Bool.and_true, Bool.and_eq_true, hahead hline', decide_eq_true_eq, List.contains_iff_mem]
    exact ⟨hupper, hlower, hdigit, _, hmem, List.mem_map_of_mem hc⟩

end Validator

/-! ## Addresses -/

/-- Letters and spaces, at least one of them. -/
structure Words (text : List Char) : Prop where
  ne_nil : text ≠ []
  letters : ∀ c ∈ text, ('a' ≤ c ∧ c ≤ 'z') ∨ ('A' ≤ c ∧ c ≤ 'Z') ∨ isSpace c = true

/-- A number of any length. -/
structure Numeral (text : List Char) : Prop where
  ne_nil : text ≠ []
  isDigit : ∀ c ∈ text, c.isDigit = true

/-- A street, the number of an apartment and a city. -/
structure StreetAddress (street apartment city text : List Char) : Prop where
  text_eq : text = street ++ [',', ' '] ++ apartment ++ [',', ' '] ++ city
  street : Words street
  apartment : Numeral apartment
  city : Words city

theorem Words.comma_notMem {text : List Char} (h : Words text) : ',' ∉ text := by
  intro hmem
  rcases h.letters ',' hmem with h | h | h
  · exact absurd h (by decide)
  · exact absurd h (by decide)
  · exact absurd h (by decide)

/-- An address is read in one way. -/
theorem StreetAddress.unique {street apartment city street' apartment' city' text : List Char}
    (h : StreetAddress street apartment city text)
    (h' : StreetAddress street' apartment' city' text) :
    street = street' ∧ apartment = apartment' ∧ city = city' := by
  have hne {part : List Char} (hpart : ',' ∉ part) : ∀ c ∈ part, (c != ',') = true := by
    rintro c hc
    exact bne_iff_ne.mpr fun hcomma => hpart (hcomma ▸ hc)
  have hdigits {part : List Char} (hpart : Numeral part) : ',' ∉ part :=
    fun hmem => absurd (hpart.isDigit ',' hmem) (by decide)
  have heq := h.text_eq.symm.trans h'.text_eq
  simp only [List.append_assoc, List.cons_append, List.nil_append] at heq
  obtain ⟨rfl, -, hrest⟩ := split_unique (hne h.street.comma_notMem) (hne h'.street.comma_notMem)
    rfl rfl heq
  obtain ⟨rfl, -, hrest⟩ := split_unique (hne (hdigits h.apartment)) (hne (hdigits h'.apartment))
    rfl rfl (List.cons.inj hrest).2
  exact ⟨rfl, rfl, (List.cons.inj hrest).2⟩

namespace Validator

variable {n : ℕ} {text : List Char}

theorem agree_words : AgreeUpTo n (letterOrSpace.repeated 1 n).language (texts Words) := by
  intro text htext
  refine (((AgreeUpTo.refl _).repeated 1 text htext).trans mem_letter_pow_mul_star).trans ?_
  simp only [Bool.or_eq_true, Bool.and_eq_true, decide_eq_true_eq, or_assoc,
    Nat.one_le_iff_ne_zero, ne_eq, List.length_eq_zero_iff]
  exact ⟨fun h => ⟨h.1, h.2⟩, fun h => ⟨h.1, h.2⟩⟩

theorem agree_numeral : AgreeUpTo n (digit.repeated 1 n).language (texts Numeral) := by
  intro text htext
  refine (((AgreeUpTo.refl _).repeated 1 text htext).trans mem_letter_pow_mul_star).trans ?_
  rw [Nat.one_le_iff_ne_zero, ne_eq, List.length_eq_zero_iff]
  exact ⟨fun h => ⟨h.1, h.2⟩, fun h => ⟨h.1, h.2⟩⟩

theorem matchesAddress_iff : ((addressRegex text.length).regexMatch text).isSome = true ↔
    ∃ street apartment city, StreetAddress street apartment city text := by
  have hplain := literal_plain ", "
  have hcomma := AgreeUpTo.refl (n := text.length) (literal ", ").language
  have hagree := agree_words.mul (hcomma.mul (agree_numeral.mul (hcomma.mul agree_words)))
  rw [addressRegex, Pattern.regexMatch_anchored_iff (by exact
    ⟨trivial, hplain, trivial, hplain, trivial⟩)]
  refine (hagree text (Nat.le_refl _)).trans ?_
  simp only [Language.mem_mul, mem_texts, mem_literal]
  constructor
  · rintro ⟨street, hstreet, _, ⟨_, rfl, _, ⟨apartment, hapartment, _, ⟨_, rfl, city, hcity, rfl⟩,
      rfl⟩, rfl⟩, rfl⟩
    exact ⟨street, apartment, city, by simp, hstreet, hapartment, hcity⟩
  · rintro ⟨street, apartment, city, rfl, hstreet, hapartment, hcity⟩
    exact ⟨street, hstreet, _, ⟨_, rfl, _, ⟨apartment, hapartment, _, ⟨_, rfl, city, hcity, rfl⟩,
      rfl⟩, rfl⟩, by simp⟩

end Validator

/-! ## Phone numbers -/

/-- Nothing, or a space, a dot or a hyphen. -/
def Separator (text : List Char) : Prop :=
  text = [] ∨ ∃ c, text = [c] ∧ (isSpace c = true ∨ c = '.' ∨ c = '-')

/-- So many digits, of which the first is not zero. -/
structure Number (least most : ℕ) (text : List Char) : Prop extends Digits least most text where
  head_ne : text.head? ≠ some '0'

def countryCodes : List String := ["972", "+972", "(972)", "(+972)", "+(972)"]

/-- What comes before the number of a subscriber. -/
inductive PhonePrefix : List Char → Prop
  | abroad {code separator area} : code ∈ countryCodes → Separator separator → Number 1 2 area →
      PhonePrefix (code.toList ++ separator ++ area)
  | landline {c} : c ∈ ['2', '3', '4', '8', '9'] → PhonePrefix ['0', c]
  | mobile {c c'} : c ∈ ['5', '7'] → c'.isDigit = true → PhonePrefix ['0', c, c']

/-- A prefix and seven digits, with a separator or none after the prefix and the third digit. -/
inductive PhoneNumber : List Char → Prop
  | mk {front separator exchange separator' line} : PhonePrefix front → Separator separator →
      Number 3 3 exchange → Separator separator' → Digits 4 4 line →
      PhoneNumber (front ++ separator ++ exchange ++ separator' ++ line)

namespace Validator

variable {text : List Char}

theorem mem_separator : text ∈ separatorRegex.language ↔ Separator text := by
  simp only [separatorRegex, mem_optional, Separator, space, Pattern.mem_alt, Pattern.mem_char,
    mem_single]
  refine or_congr_right ?_
  constructor
  · rintro (⟨c, rfl, hspace⟩ | rfl | rfl)
    · exact ⟨c, rfl, .inl hspace⟩
    · exact ⟨'.', rfl, .inr (.inl rfl)⟩
    · exact ⟨'-', rfl, .inr (.inr rfl)⟩
  · rintro ⟨c, rfl, hspace | rfl | rfl⟩
    · exact .inl ⟨c, rfl, hspace⟩
    · exact .inr (.inl rfl)
    · exact .inr (.inr rfl)

theorem mem_plus : text ∈ plusRegex.language ↔ text = [] ∨ text = ['+'] := by
  rw [plusRegex, mem_optional, mem_single]

theorem mem_countryCode :
    text ∈ countryCodeRegex.language ↔ ∃ code ∈ countryCodes, text = code.toList := by
  simp only [countryCodeRegex, Pattern.mem_alt, Pattern.mem_seq, mem_plus, mem_single, mem_literal,
    countryCodes, List.mem_cons, List.not_mem_nil, or_false, exists_eq_or_imp, exists_eq_left]
  constructor
  · rintro ((rfl | rfl) | ⟨_, rfl | rfl, rfl⟩ | rfl | rfl) <;> simp
  · rintro (rfl | rfl | rfl | rfl | rfl)
    · exact .inl (.inl rfl)
    · exact .inl (.inr rfl)
    · exact .inr (.inl ⟨_, .inl rfl, rfl⟩)
    · exact .inr (.inl ⟨_, .inr rfl, rfl⟩)
    · exact .inr (.inr (.inr rfl))

theorem isDigit_iff_le {c : Char} : c.isDigit = true ↔ '0' ≤ c ∧ c ≤ '9' := by
  have hle (a b : Char) : a ≤ b ↔ a.toNat ≤ b.toNat := UInt32.le_iff_toNat_le
  rw [hle, hle, Char.isDigit_iff_toNat]

/-- The digits but zero. -/
theorem nonzero_iff {c : Char} : '1' ≤ c ∧ c ≤ '9' ↔ c.isDigit = true ∧ c ≠ '0' := by
  have hle (a b : Char) : a ≤ b ↔ a.toNat ≤ b.toNat := UInt32.le_iff_toNat_le
  rw [hle, hle, Char.isDigit_iff_toNat, ne_eq, ← Char.toNat_inj]
  simp only [Char.reduceToNat]
  omega

theorem mem_digits {required more : ℕ} :
    text ∈ (digit.repeated required more).language ↔ Digits required (required + more) text := by
  have hspans : (digit.repeated required more).Spans [] text [] ↔
      text ∈ (digit.repeated required more).language := Pattern.spans_iff trivial
  rw [← hspans, spans_digits_iff]

/-- A digit that is not zero, and more digits. -/
theorem mem_number {p : Char → Bool} (hp : ∀ c, p c = true ↔ c.isDigit = true ∧ c ≠ '0')
    {l : Language Char} {least most : ℕ} (hl : ∀ rest, rest ∈ l ↔ Digits least most rest) :
    text ∈ letter p * l ↔ Number (least + 1) (most + 1) text := by
  constructor
  · rintro ⟨_, ⟨c, rfl, hc⟩, rest, hrest, rfl⟩
    obtain ⟨hdigit, hne⟩ := (hp c).mp hc
    have hdigits := (hl rest).mp hrest
    exact ⟨⟨List.forall_mem_cons.mpr ⟨hdigit, hdigits.isDigit⟩,
      Nat.succ_le_succ hdigits.least_le, Nat.succ_le_succ hdigits.le_most⟩, by simpa using hne⟩
  · rintro ⟨⟨hdigits, hleast, hmost⟩, hhead⟩
    obtain ⟨c, rest, rfl⟩ := List.exists_cons_of_length_pos (by omega : 0 < text.length)
    obtain ⟨hdigit, hrest⟩ := List.forall_mem_cons.mp hdigits
    refine ⟨[c], ⟨c, rfl, (hp c).mpr ⟨hdigit, by simpa using hhead⟩⟩, rest, ?_, rfl⟩
    exact (hl rest).mpr ⟨hrest, Nat.le_of_succ_le_succ hleast, Nat.le_of_succ_le_succ hmost⟩

theorem mem_area :
    text ∈ (Pattern.seq (range '1' '9') digit.optional).language ↔ Number 1 2 text :=
  mem_number (fun c => by simpa using nonzero_iff) fun _ => mem_digits

/-- One of some digits, just once. -/
theorem mem_once {chars : String} :
    text ∈ ((oneOf chars).repeated 1 0).language ↔ ∃ c ∈ chars.toList, text = [c] := by
  simp only [mem_exactly, pow_one, oneOf, Pattern.mem_char, List.contains_iff_mem]
  exact exists_congr fun _ => and_comm

theorem mem_anyDigit :
    text ∈ (range '0' '9').language ↔ ∃ c, text = [c] ∧ c.isDigit = true := by
  simp only [range, Pattern.mem_char, Bool.and_eq_true, decide_eq_true_eq, isDigit_iff_le]

theorem mem_phonePrefix : text ∈ phonePrefixRegex.language ↔ PhonePrefix text := by
  simp only [phonePrefixRegex, Pattern.mem_alt, Pattern.mem_seq, Pattern.mem_group,
    mem_countryCode, mem_separator, mem_single, mem_once, mem_anyDigit]
  simp only [← Pattern.mem_seq, mem_area]
  constructor
  · rintro (⟨_, ⟨code, hcode, rfl⟩, _, ⟨separator, hseparator, area, harea, rfl⟩, rfl⟩ |
      ⟨_, rfl, _, ⟨c, hc, rfl⟩, rfl⟩ | ⟨_, rfl, _, ⟨_, ⟨c, hc, rfl⟩, _, ⟨c', rfl, hc'⟩, rfl⟩, rfl⟩)
    · rw [← List.append_assoc]
      exact .abroad hcode hseparator harea
    · exact .landline hc
    · exact .mobile hc hc'
  · rintro (⟨hcode, hseparator, harea⟩ | hc | ⟨hc, hc'⟩)
    · exact .inl ⟨_, ⟨_, hcode, rfl⟩, _, ⟨_, hseparator, _, harea, rfl⟩,
        (List.append_assoc _ _ _).symm⟩
    · exact .inr (.inl ⟨_, rfl, _, ⟨_, hc, rfl⟩, rfl⟩)
    · exact .inr (.inr ⟨_, rfl, _, ⟨_, ⟨_, hc, rfl⟩, _, ⟨_, rfl, hc'⟩, rfl⟩, rfl⟩)

theorem mem_exchange :
    text ∈ ((Pattern.char fun c => !(c == '0' || !c.isDigit)).repeated 1 0).language *
      (digit.repeated 2 0).language ↔ Number 3 3 text := by
  have hfirst : ((Pattern.char fun c => !(c == '0' || !c.isDigit)).repeated 1 0).language =
      letter fun c => !(c == '0' || !c.isDigit) := by
    ext
    rw [mem_exactly, pow_one]
    rfl
  rw [hfirst]
  exact mem_number (fun c => by simp [and_comm]) fun _ => mem_digits

theorem mem_phoneNumber : text ∈ (Pattern.seq phonePrefixRegex (.seq separatorRegex
    (.group 5 subscriberRegex))).language ↔ PhoneNumber text := by
  have hsubscriber {text : List Char} : text ∈ subscriberRegex.language ↔ ∃ exchange,
      Number 3 3 exchange ∧ ∃ v, (∃ separator, Separator separator ∧ ∃ line, Digits 4 4 line ∧
        separator ++ line = v) ∧ exchange ++ v = text := by
    rw [subscriberRegex, Pattern.language, Pattern.language, ← mul_assoc, Language.mem_mul]
    simp only [mem_exchange, Pattern.mem_seq, mem_separator, mem_digits, Nat.add_zero]
  simp only [Pattern.mem_seq, Pattern.mem_group, mem_phonePrefix, mem_separator, hsubscriber]
  constructor
  · rintro ⟨front, hfront, _, ⟨separator, hseparator, _, ⟨exchange, hexchange, _, ⟨separator',
      hseparator', line, hline, rfl⟩, rfl⟩, rfl⟩, rfl⟩
    simp only [← List.append_assoc]
    exact .mk hfront hseparator hexchange hseparator' hline
  · rintro ⟨hfront, hseparator, hexchange, hseparator', hline⟩
    exact ⟨_, hfront, _, ⟨_, hseparator, _, ⟨_, hexchange, _, ⟨_, hseparator', _, hline, rfl⟩, rfl⟩,
      rfl⟩, by simp only [List.append_assoc]⟩

theorem matchesPhoneNumber_iff :
    (phoneNumberRegex.regexMatch text).isSome = true ↔ PhoneNumber text := by
  rw [phoneNumberRegex, Pattern.regexMatch_anchored_iff, mem_phoneNumber]
  simp [Pattern.Plain, phonePrefixRegex, countryCodeRegex, plusRegex, separatorRegex, space,
    subscriberRegex, Pattern.optional, single, range, digit, oneOf, literal_plain]

end Validator

end TriviaServer
