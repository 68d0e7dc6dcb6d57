import TriviaServer.Calendar.Gregorian
import TriviaServer.Model.Json
import TriviaServer.Regex.Pattern

/-! # What the server takes from libraries, and the validator -/

namespace TriviaServer

/-- The regular expressions of `Validator`, under the names of their constants. -/
inductive RegexValidator where
  | password | email | address | phoneNumber
  deriving DecidableEq

/-- Library functions the model does not define: parsing a buffer as JSON (`none` is a
discarded value), `std::regex_match` for the long expressions, and the check of a birthday on the
day of the call, which is `Validator.isValidBirthday` of that day. -/
structure Platform where
  parse : List UInt8 → Option Json
  regexMatch : RegexValidator → String → Bool
  isValidBirthday : String → Bool × String

/-- The checks of one user-supplied record, in order: the first failure is the answer. -/
def firstInvalid : List (Bool × String) → Bool × String
  | [] => (true, "")
  | (true, _) :: rest => firstInvalid rest
  | (false, message) :: _ => (false, message)

namespace Validator

variable (P : Platform)

def minUsernameLength : ℕ := 3
def minPasswordLength : ℕ := 8

def isValidUsername (username : String) : Bool × String :=
  if minUsernameLength ≤ username.utf8ByteSize then (true, "")
  else (false, "Username must be at least 3 characters long")

def isValidPassword (password : String) : Bool × String :=
  if password.utf8ByteSize < minPasswordLength then
    (false, "Password must be at least 8 characters long")
  else if !P.regexMatch .password password then
    (false, "Password must contain at least one uppercase, one lowercase, one number and one special character")
  else
    (true, "")

def isValidEmail (email : String) : Bool × String :=
  let emailLower := String.ofList (email.toList.map Char.toLower)
  if P.regexMatch .email emailLower then (true, "")
  else (false, "Invalid email format. Should be a valid email address")

def isValidAddress (address : String) : Bool × String :=
  if P.regexMatch .address address then (true, "")
  else (false, "Invalid address format. Should be Street, Apt, City. Street and City must contain only upper and lower case letters and space, Apt - only a number")

def isValidPhoneNumber (phoneNumber : String) : Bool × String :=
  if P.regexMatch .phoneNumber phoneNumber then (true, "")
  else (false, "Invalid phone number format. Should be a legal Israeli phone number")

/-! ## Birthdays -/

section Birthdays

open Calendar Regex

/-- `^(\d{1,2})\.(\d{1,2})\.(\d{4})$`, with the separator of one of the three formats. -/
def dateRegex (separator : Char) : Pattern Char :=
  .seq .start (.seq (.group 1 (.repeated digit 1 1)) (.seq (single separator)
    (.seq (.group 2 (.repeated digit 1 1)) (.seq (single separator)
      (.seq (.group 3 (.repeated digit 4 0)) .stop)))))

def dateRegex1 : Pattern Char := dateRegex '.'
def dateRegex2 : Pattern Char := dateRegex '/'
def dateRegex3 : Pattern Char := dateRegex '-'

/-- `std::stoi` of a few digits. -/
def stoi (text : List Char) : ℕ := Nat.ofDigitChars 10 text 0

/-- Whether the format is matched, whether the birthday is valid, and a message. Dates are
compared by their day numbers; `today` is the date in UTC. -/
def isValidBirthdayMatch (today : ℤ) (birthdayRegex : Pattern Char) (birthday : String) :
    Bool × Bool × String :=
  let invalidFormat := "Invalid birthday format. Should be d.m.yyyy, d/m/yyyy or d-m-yyyy."
  match birthdayRegex.regexMatch birthday.toList with
  | some groups =>
      match groups.lookup 1, groups.lookup 2, groups.lookup 3 with
      | some day, some month, some year =>
          let birthdayDate : YearMonthDay := ⟨stoi year, stoi month, stoi day⟩
          if !birthdayDate.ok then
            (true, false, "Invalid birthday. Date should be a legal date.")
          else if birthdayDate.dayNumber > today - 365 * 16 then
            (true, false, "Invalid birthday. Must be older than 16 years.")
          else if birthdayDate.dayNumber < today - 365 * 150 then
            (true, false, "Invalid birthday. Must be younger than 150 years.")
          else
            (true, true, "")
      | _, _, _ => (false, false, invalidFormat)
  | none => (false, false, invalidFormat)

/-- The clock is read for each format, but the day of a call is taken to be one. -/
def isValidBirthday (today : ℤ) (birthday : String) : Bool × String :=
  let isValidBirthdayMatch1 := isValidBirthdayMatch today dateRegex1 birthday
  let isValidBirthdayMatch2 := isValidBirthdayMatch today dateRegex2 birthday
  let isValidBirthdayMatch3 := isValidBirthdayMatch today dateRegex3 birthday
  if isValidBirthdayMatch1.1 then
    if isValidBirthdayMatch1.2.1 then (true, "") else (false, isValidBirthdayMatch1.2.2)
  else if isValidBirthdayMatch2.1 then
    if isValidBirthdayMatch2.2.1 then (true, "") else (false, isValidBirthdayMatch2.2.2)
  else if isValidBirthdayMatch3.1 then
    if isValidBirthdayMatch3.2.1 then (true, "") else (false, isValidBirthdayMatch3.2.2)
  else
    (false, "Invalid birthday format. Should be d.m.yyyy, d/m/yyyy or d-m-yyyy")

end Birthdays

end Validator

end TriviaServer
