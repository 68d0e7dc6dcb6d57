import TriviaServer.Model.ConfigLoader
import TriviaServer.Regex.Spans

/-! # The addresses that are accepted

Only the word boundary tells where the dots of an address have to be: behind an octet without
one the next character is not a digit, and behind a dot it is. -/

namespace TriviaServer

open Regex

namespace ConfigLoader

variable {seen text rest : List Char}

/-! ## Octets -/

theorem toDigits_two {i j : ℕ} (hi : 0 < i) (hi' : i < 10) (hj : j < 10) :
    Nat.toDigits 10 (10 * i + j) = [i.digitChar, j.digitChar] := by
  rw [← Nat.toDigits_append_toDigits (by decide) hi hj, Nat.toDigits_of_lt_base hi',
    Nat.toDigits_of_lt_base hj]
  rfl

theorem toDigits_three {i j k : ℕ} (hi : 0 < i) (hi' : i < 10) (hj : j < 10) (hk : k < 10) :
    Nat.toDigits 10 (10 * (10 * i + j) + k) = [i.digitChar, j.digitChar, k.digitChar] := by
  rw [← Nat.toDigits_append_toDigits (by decide) (by omega) hk, toDigits_two hi hi' hj,
    Nat.toDigits_of_lt_base hk]
  rfl

/-- The pattern of an octet, alternative for alternative. -/
theorem spans_octet_cases : octetRegex.Spans seen text rest ↔
    (∃ k ≤ 5, text = [Nat.digitChar 2, Nat.digitChar 5, k.digitChar]) ∨
    (∃ j ≤ 4, ∃ k ≤ 9, text = [Nat.digitChar 2, j.digitChar, k.digitChar]) ∨
    (∃ j ≤ 9, ∃ k ≤ 9, text = [Nat.digitChar 1, j.digitChar, k.digitChar]) ∨
    (∃ j, (1 ≤ j ∧ j ≤ 9) ∧ ∃ k ≤ 9, text = [j.digitChar, k.digitChar]) ∨
    ∃ k ≤ 9, text = [k.digitChar] := by
  have h₅ (seen text rest : List Char) : (range '0' '5').Spans seen text rest ↔ _ :=
    @spans_range seen text rest 0 5 (by decide) (by decide)
  have h₄ (seen text rest : List Char) : (range '0' '4').Spans seen text rest ↔ _ :=
    @spans_range seen text rest 0 4 (by decide) (by decide)
  have h₉ (seen text rest : List Char) : (range '1' '9').Spans seen text rest ↔ _ :=
    @spans_range seen text rest 1 9 (by decide) (by decide)
  simp only [octetRegex, Pattern.Spans, spans_single, spans_digit, h₅, h₄, h₉, Nat.zero_le,
    true_and]
  constructor
  · rintro (⟨_, _, rfl, rfl, _, _, rfl, rfl, k, hk, rfl⟩ | ⟨_, _, rfl, htens, k, hk, rfl⟩)
    · exact .inl ⟨k, hk, rfl⟩
    · rcases htens with ⟨_, _, rfl, rfl, j, hj, rfl⟩ | ⟨_, _, rfl, rfl, j, hj, rfl⟩ |
        ⟨j, hj, rfl⟩ | rfl
      · exact .inr (.inl ⟨j, hj, k, hk, rfl⟩)
      · exact .inr (.inr (.inl ⟨j, hj, k, hk, rfl⟩))
      · exact .inr (.inr (.inr (.inl ⟨j, hj, k, hk, rfl⟩)))
      · exact .inr (.inr (.inr (.inr ⟨k, hk, rfl⟩)))
  · rintro (⟨k, hk, rfl⟩ | ⟨j, hj, k, hk, rfl⟩ | ⟨j, hj, k, hk, rfl⟩ | ⟨j, hj, k, hk, rfl⟩ |
      ⟨k, hk, rfl⟩)
    · exact .inl ⟨['2'], _, rfl, rfl, ['5'], _, rfl, rfl, k, hk, rfl⟩
    · exact .inr ⟨['2', j.digitChar], _, rfl, .inl ⟨_, _, rfl, rfl, j, hj, rfl⟩, k, hk, rfl⟩
    · exact .inr ⟨['1', j.digitChar], _, rfl, .inr (.inl ⟨_, _, rfl, rfl, j, hj, rfl⟩), k, hk, rfl⟩
    · exact .inr ⟨[j.digitChar], _, rfl, .inr (.inr (.inl ⟨j, hj, rfl⟩)), k, hk, rfl⟩
    · exact .inr ⟨[], _, rfl, .inr (.inr (.inr rfl)), k, hk, rfl⟩

/-- An octet is a number up to 255 without leading zeros. -/
theorem spans_octet :
    octetRegex.Spans seen text rest ↔ ∃ n ≤ 255, text = Nat.toDigits 10 n := by
  rw [spans_octet_cases]
  constructor
  · rintro (⟨k, hk, rfl⟩ | ⟨j, hj, k, hk, rfl⟩ | ⟨j, hj, k, hk, rfl⟩ | ⟨j, hj, k, hk, rfl⟩ |
      ⟨k, hk, rfl⟩)
    · exact ⟨10 * (10 * 2 + 5) + k, by omega,
        (toDigits_three (by decide) (by decide) (by decide) (by omega)).symm⟩
    · exact ⟨10 * (10 * 2 + j) + k, by omega,
        (toDigits_three (by decide) (by decide) (by omega) (by omega)).symm⟩
    · exact ⟨10 * (10 * 1 + j) + k, by omega,
        (toDigits_three (by decide) (by decide) (by omega) (by omega)).symm⟩
    · exact ⟨10 * j + k, by omega, (toDigits_two (by omega) (by omega) (by omega)).symm⟩
    · exact ⟨k, by omega, (Nat.toDigits_of_lt_base (by omega)).symm⟩
  · rintro ⟨n, hn, rfl⟩
    have hones := Nat.div_add_mod n 10
    have htens := Nat.div_add_mod (n / 10) 10
    rcases lt_or_ge n 10 with hsmall | htwo
    · rw [Nat.toDigits_of_lt_base hsmall]
      exact .inr (.inr (.inr (.inr ⟨n, by omega, rfl⟩)))
    rcases lt_or_ge n 100 with hsmall | hthree
    · rw [← hones, toDigits_two (by omega) (by omega) (by omega)]
      exact .inr (.inr (.inr (.inl ⟨n / 10, by omega, n % 10, by omega, rfl⟩)))
    · rw [← hones, ← htens, toDigits_three (by omega) (by omega) (by omega) (by omega)]
      obtain hhundreds | hhundreds : n / 10 / 10 = 1 ∨ n / 10 / 10 = 2 := by omega
      · rw [hhundreds]
        exact .inr (.inr (.inl ⟨n / 10 % 10, by omega, n % 10, by omega, rfl⟩))
      · rw [hhundreds]
        rcases lt_or_ge (n / 10 % 10) 5 with hfour | hfive
        · exact .inr (.inl ⟨n / 10 % 10, by omega, n % 10, by omega, rfl⟩)
        · obtain hfive : n / 10 % 10 = 5 := by omega
          rw [hfive]
          exact .inl ⟨n % 10, by omega, rfl⟩

/-! ## Octets and dots -/

/-- Both ends of a number are characters of a word. -/
theorem isWordChar_of_mem_toDigits {n : ℕ} {c : Char} (h : c ∈ Nat.toDigits 10 n) :
    isWordChar c = true := by
  have hdigit := Nat.isDigit_of_mem_toDigits (by decide) (Nat.le_refl 10) h
  rw [isWordChar, Char.isAlphanum, hdigit, Bool.or_true, Bool.true_or]

theorem head_append_isWordChar {word : List Char} (hne : word ≠ [])
    (hword : ∀ c ∈ word, isWordChar c = true) (after : List Char) :
    (word ++ after).head?.any isWordChar = true := by
  obtain ⟨c, word, rfl⟩ := List.exists_cons_of_ne_nil hne
  exact hword c List.mem_cons_self

/-- A dot is there or not, and the word goes on behind a dot and ends without one. -/
theorem spans_dottedOctet : dottedOctetRegex.Spans seen text rest ↔ ∃ n ≤ 255,
    (text = Nat.toDigits 10 n ∧ rest.head?.any isWordChar = false) ∨
      (text = Nat.toDigits 10 n ++ ['.'] ∧ rest.head?.any isWordChar = true) := by
  have hend (n : ℕ) : ((Nat.toDigits 10 n).reverse ++ seen).head?.any isWordChar = true := by
    refine head_append_isWordChar (by simp) (fun c hc => ?_) seen
    exact isWordChar_of_mem_toDigits (List.mem_reverse.mp hc)
  simp only [dottedOctetRegex, Pattern.Spans, wordBoundary, Pattern.spans_optional, spans_single,
    spans_octet]
  constructor
  · rintro ⟨_, _, rfl, ⟨n, hn, rfl⟩, _, _, rfl, rfl | rfl, rfl, hboundary⟩
    · rw [List.reverse_nil, List.nil_append, hend] at hboundary
      exact ⟨n, hn, .inl ⟨List.append_nil _, (Bool.eq_false_iff.mpr hboundary.symm)⟩⟩
    · exact ⟨n, hn, .inr ⟨rfl, Bool.eq_true_of_not_eq_false hboundary.symm⟩⟩
  · rintro ⟨n, hn, ⟨rfl, hrest⟩ | ⟨rfl, hrest⟩⟩
    · refine ⟨_, [], (List.append_nil _).symm, ⟨n, hn, rfl⟩, [], [], rfl, .inl rfl, rfl, ?_⟩
      rw [List.reverse_nil, List.nil_append, hend, hrest]
      decide
    · refine ⟨_, ['.'], rfl, ⟨n, hn, rfl⟩, ['.'], [], rfl, .inr rfl, rfl, ?_⟩
      rw [hrest]
      exact (by decide : isWordChar '.' ≠ true)

/-- Numbers up to 255 without leading zeros, with a dot between any two of them. -/
def Dotted (octets : List ℕ) (text : List Char) : Prop :=
  (∀ n ∈ octets, n ≤ 255) ∧ text = ['.'].intercalate (octets.map (Nat.toDigits 10))

theorem head_dotted {n : ℕ} {octets : List ℕ} :
    (['.'].intercalate ((n :: octets).map (Nat.toDigits 10))).head?.any isWordChar = true := by
  have hword (after : List Char) : (Nat.toDigits 10 n ++ after).head?.any isWordChar = true :=
    head_append_isWordChar Nat.toDigits_ne_nil (fun _ hc => isWordChar_of_mem_toDigits hc) after
  cases octets with
  | nil => simpa using hword []
  | cons m octets =>
      rw [List.map_cons, List.map_cons, List.intercalate_cons_cons, List.append_assoc]
      exact hword _

/-- By induction on the number of octets: a dot behind each but the last. -/
theorem spans_dottedOctets {n : ℕ} :
    Iterated dottedOctetRegex.Spans n seen text [] ↔
      ∃ octets, octets.length = n ∧ Dotted octets text := by
  induction n generalizing seen text with
  | zero =>
      constructor
      · rintro rfl
        exact ⟨[], rfl, by simp, rfl⟩
      · rintro ⟨octets, hlength, -, rfl⟩
        rw [List.eq_nil_of_length_eq_zero hlength]
        rfl
  | succ n ih =>
      simp only [Iterated, spans_dottedOctet, ih, List.append_nil]
      constructor
      · rintro ⟨u, _, rfl, ⟨n, hn, hdot⟩, octets, rfl, hle, rfl⟩
        refine ⟨n :: octets, rfl, List.forall_mem_cons.mpr ⟨hn, hle⟩, ?_⟩
        cases octets with
        | nil =>
            rcases hdot with ⟨rfl, -⟩ | ⟨-, hword⟩
            · simp
            · cases hword
        | cons m octets =>
            rcases hdot with ⟨-, hend⟩ | ⟨rfl, -⟩
            · cases hend.symm.trans head_dotted
            · simp
      · rintro ⟨octets, hlength, hle, rfl⟩
        obtain ⟨m, octets, rfl⟩ := List.exists_cons_of_length_eq_add_one hlength
        obtain ⟨hm, hle⟩ := List.forall_mem_cons.mp hle
        cases octets with
        | nil =>
            exact ⟨_, [], by simp, ⟨m, hm, .inl ⟨rfl, rfl⟩⟩, [], Nat.succ.inj hlength, hle, rfl⟩
        | cons k octets =>
            exact ⟨_, _, by simp, ⟨m, hm, .inr ⟨rfl, head_dotted⟩⟩, k :: octets,
              Nat.succ.inj hlength, hle, rfl⟩

theorem spans_ip : ipRegex.Spans [] text [] ↔
    ∃ octets, octets.length = 4 ∧ Dotted octets text := by
  rw [← @spans_dottedOctets [] text]
  constructor
  · rintro ⟨_, _, rfl, ⟨rfl, -⟩, u, _, rfl, hu, rfl, -⟩
    rw [List.nil_append, List.append_nil]
    exact Pattern.spans_exactly.mp hu
  · intro htext
    exact ⟨[], text, rfl, ⟨rfl, rfl⟩, text, [], (List.append_nil _).symm,
      Pattern.spans_exactly.mpr htext, rfl, rfl⟩

end ConfigLoader

/-- Four decimal numbers from 0 to 255, joined by single dots. -/
def CanonicalIPv4 (ip : String) : Prop :=
  ∃ octets : List ℕ, octets.length = 4 ∧ (∀ n ∈ octets, n ≤ 255) ∧
    ip = ".".intercalate (octets.map toString)

/-- The canonical addresses are accepted, and no other strings. -/
theorem isValidIP_iff (ip : String) : ConfigLoader.isValidIP ip = true ↔ CanonicalIPv4 ip := by
  rw [ConfigLoader.isValidIP, Pattern.regexMatch_isSome_iff, ConfigLoader.spans_ip]
  refine exists_congr fun octets => and_congr_right fun _ => and_congr_right fun _ => ?_
  rw [← String.toList_inj, String.toList_intercalate, List.map_map]
  have hdigits : String.toList ∘ toString = Nat.toDigits 10 := by
    funext n
    rw [Function.comp_apply, Nat.toString_eq_repr, Nat.toList_repr]
  rw [hdigits]
  rfl

end TriviaServer
