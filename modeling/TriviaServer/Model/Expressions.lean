import TriviaServer.Model.Validator

/-! # The expressions of the validator

The four long expressions, in the notation of the patterns. A repetition without a bound is
bounded by the length of the text. A password is matched byte by byte, as `.` is; in the other
expressions no class has a character outside ASCII. -/

namespace TriviaServer

open Regex

namespace Validator

/-! ## Passwords -/

/-- The bytes between two ASCII characters. -/
def byteRange (first last : Char) : Pattern UInt8 :=
  .char fun b => first.toUInt8 ≤ b && b ≤ last.toUInt8

/-- `.`, which does not match the end of a line. -/
def anyByte : Pattern UInt8 := .char fun b => b != '\n'.toUInt8 && b != '\r'.toUInt8

/-- `[*&^%$#@!]`. -/
def specialByte : Pattern UInt8 :=
  .char ((['*', '&', '^', '%', '$', '#', '@', '!'].map Char.toUInt8).contains ·)

/-- `(?=.*[A-Z])(?=.*[a-z])(?=.*[0-9])(?=.*[*&^%$#@!])`, without `(?=.*` and `)`. -/
def passwordLookaheads : List (Pattern UInt8) :=
  [byteRange 'A' 'Z', byteRange 'a' 'z', byteRange '0' '9', specialByte]

/-- The lookaheads, and `.{8,}`. -/
def matchesPassword (text : List UInt8) : Bool :=
  passwordLookaheads.all (fun r => (anyByte.repeated 0 text.length |>.seq r).startsWith text) &&
    ((anyByte.repeated 8 text.length).regexMatch text).isSome

/-! ## Addresses -/

/-- `[a-zA-Z\s]`. -/
def letterOrSpace : Pattern Char :=
  .char fun c => ('a' ≤ c && c ≤ 'z') || ('A' ≤ c && c ≤ 'Z') || isSpace c

/-- `^[a-zA-Z\s]+, \d+, [a-zA-Z\s]+$`. -/
def addressRegex (n : ℕ) : Pattern Char :=
  .seq .start (.seq (.seq (.repeated letterOrSpace 1 n) (.seq (literal ", ")
    (.seq (.repeated digit 1 n) (.seq (literal ", ") (.repeated letterOrSpace 1 n))))) .stop)

/-! ## Phone numbers -/

/-- `(?:\s|\.|-)?`. -/
def separatorRegex : Pattern Char := Pattern.optional (.alt space (.alt (single '.') (single '-')))

/-- `\+?`. -/
def plusRegex : Pattern Char := Pattern.optional (single '+')

/-- `\+?972|\(\+?972\)|\+?\(972\)`. -/
def countryCodeRegex : Pattern Char :=
  .alt (.seq plusRegex (literal "972"))
    (.alt (.seq (single '(') (.seq plusRegex (literal "972)"))) (.seq plusRegex (literal "(972)")))

/-- The prefix of a number from abroad, of a landline or of a mobile phone. -/
def phonePrefixRegex : Pattern Char :=
  .alt (.seq (.group 1 countryCodeRegex) (.seq separatorRegex
      (.group 2 (.seq (range '1' '9') digit.optional))))
    (.alt (.group 3 (.seq (single '0') (.repeated (oneOf "23489") 1 0)))
      (.group 4 (.seq (single '0') (.seq (.repeated (oneOf "57") 1 0) (range '0' '9')))))

/-- `[^0\D]{1}\d{2}(?:\s|\.|-)?\d{4}`. -/
def subscriberRegex : Pattern Char :=
  .seq (.repeated (.char fun c => !(c == '0' || !c.isDigit)) 1 0)
    (.seq (.repeated digit 2 0) (.seq separatorRegex (.repeated digit 4 0)))

def phoneNumberRegex : Pattern Char :=
  .seq .start
    (.seq (.seq phonePrefixRegex (.seq separatorRegex (.group 5 subscriberRegex))) .stop)

/-! ## Emails -/

/-- The characters of some ranges of codes. -/
def codes (ranges : List (ℕ × ℕ)) : Pattern Char :=
  .char fun c => ranges.any fun range => range.1 ≤ c.toNat && c.toNat ≤ range.2

/-- `[a-z0-9]`. -/
def labelEnd : Pattern Char := .char fun c => ('a' ≤ c && c ≤ 'z') || c.isDigit

/-- `[a-z0-9-]`. -/
def labelChar : Pattern Char := .char fun c => ('a' ≤ c && c ≤ 'z') || c.isDigit || c == '-'

/-- ``!#$%&'*+/=?^_`{|}~-``. -/
def atomSpecials : List Char :=
  ['!', '#', '$', '%', '&', '\x27', '*', '+', '/', '=', '?', '^', '_', '\x60', '\x7b', '|', '\x7d',
    '~', '-']

/-- `[a-z0-9]` and the special characters. -/
def atomChar : Pattern Char :=
  .char fun c => ('a' ≤ c && c ≤ 'z') || c.isDigit || atomSpecials.contains c

/-- `\\[\x01-\x09\x0b\x0c\x0e-\x7f]`. -/
def escapedChar : Pattern Char :=
  .seq (single '\x5c') (codes [(0x01, 0x09), (0x0b, 0x0b), (0x0c, 0x0c), (0x0e, 0x7f)])

/-- What stands between the quotes. -/
def quotedChar : Pattern Char :=
  .alt (codes [(0x01, 0x08), (0x0b, 0x0b), (0x0c, 0x0c), (0x0e, 0x1f), (0x21, 0x21), (0x23, 0x5b),
    (0x5d, 0x7f)]) escapedChar

/-- What follows the tag of an address in brackets. -/
def taggedChar : Pattern Char :=
  .alt (codes [(0x01, 0x08), (0x0b, 0x0b), (0x0c, 0x0c), (0x0e, 0x1f), (0x21, 0x5a), (0x53, 0x7f)])
    escapedChar

/-- Before the `@`: atoms with dots between them, or a quotation. -/
def localPartRegex (n : ℕ) : Pattern Char :=
  .alt (.seq (.repeated atomChar 1 n)
      (.repeated (.seq (single '.') (.repeated atomChar 1 n)) 0 n))
    (.seq (single '\x22') (.seq (.repeated quotedChar 0 n) (single '\x22')))

/-- `[a-z0-9](?:[a-z0-9-]*[a-z0-9])?`. -/
def labelRegex (n : ℕ) : Pattern Char :=
  .seq labelEnd (Pattern.optional (.seq (.repeated labelChar 0 n) labelEnd))

/-- `25[0-5]|2[0-4][0-9]|[01]?[0-9][0-9]?`. -/
def emailOctetRegex : Pattern Char :=
  .alt (.seq (literal "25") (range '0' '5'))
    (.alt (.seq (single '2') (.seq (range '0' '4') (range '0' '9')))
      (.seq (oneOf "01").optional (.seq (range '0' '9') (range '0' '9').optional)))

/-- Behind the `@`: labels with dots between them, or an address in brackets. -/
def domainRegex (n : ℕ) : Pattern Char :=
  .alt (.seq (.repeated (.seq (labelRegex n) (single '.')) 1 n) (labelRegex n))
    (.seq (single '[') (.seq (.repeated (.seq emailOctetRegex (single '.')) 3 0)
      (.seq (.alt emailOctetRegex (.seq (.repeated labelChar 0 n) (.seq labelEnd
        (.seq (single ':') (.repeated taggedChar 1 n))))) (single ']'))))

def emailRegex (n : ℕ) : Pattern Char :=
  .seq (localPartRegex n) (.seq (single '@') (domainRegex n))

/-- `std::regex_match` for the long expressions. -/
def regexMatch : RegexValidator → String → Bool
  | .password, text => matchesPassword text.toByteArray.data.toList
  | .email, text => ((emailRegex text.length).regexMatch text.toList).isSome
  | .address, text => ((addressRegex text.length).regexMatch text.toList).isSome
  | .phoneNumber, text => (phoneNumberRegex.regexMatch text.toList).isSome

end Validator

/-- A platform that matches the expressions of the source. -/
def Platform.withExpressions (P : Platform) : Platform :=
  { P with regexMatch := Validator.regexMatch }

end TriviaServer
