import Mathlib.Data.Nat.Notation

/-! # Regular expressions

The patterns of ECMAScript that consist of characters, sequences, alternatives, bounded greedy
repetitions, groups and assertions. The matcher lists all outcomes of a pattern, in the order in
which backtracking comes to them. -/

namespace Regex

inductive Pattern (α : Type) where
  | empty
  /-- A character, or one of a class. -/
  | char (p : α → Bool)
  | seq (r₁ r₂ : Pattern α)
  | alt (r₁ r₂ : Pattern α)
  /-- As many times as required, and then as often as possible up to a number of times more. -/
  | repeated (r : Pattern α) (required more : ℕ)
  /-- A group that is captured under its number. -/
  | group (index : ℕ) (r : Pattern α)
  | start
  | stop
  /-- Between a character of a word and something else. -/
  | boundary (word : α → Bool)

/-- What has been read, the last character first, what has not, and the groups captured. -/
structure State (α : Type) where
  seen : List α
  rest : List α
  captures : List (ℕ × List α)

variable {α : Type}

namespace State

def read (x : State α) (a : α) (rest : List α) : State α :=
  { x with seen := a :: x.seen, rest }

/-- The text between two states. -/
def textTo (x y : State α) : List α := x.rest.take (x.rest.length - y.rest.length)

def capture (y : State α) (index : ℕ) (text : List α) : State α :=
  { y with captures := (index, text) :: y.captures }

/-- Each iteration forgets what the groups inside have captured in the one before. -/
def forget (x : State α) (groups : List ℕ) : State α :=
  { x with captures := x.captures.filter fun c => !groups.contains c.1 }

end State

/-- The required iterations. -/
def times (step : State α → List (State α)) : ℕ → State α → List (State α)
  | 0, x => [x]
  | n + 1, x => (step x).flatMap (times step n)

/-- The further iterations. One that reads nothing is refused. -/
def upTo (step : State α → List (State α)) : ℕ → State α → List (State α)
  | 0, x => [x]
  | n + 1, x =>
      ((step x).filter fun y => y.rest.length ≠ x.rest.length).flatMap (upTo step n) ++ [x]

namespace Pattern

/-- The numbers of the groups. -/
def groups : Pattern α → List ℕ
  | seq r₁ r₂ | alt r₁ r₂ => r₁.groups ++ r₂.groups
  | repeated r _ _ => r.groups
  | group index r => index :: r.groups
  | _ => []

def run : Pattern α → State α → List (State α)
  | empty, x => [x]
  | char p, x =>
      match x.rest with
      | a :: rest => if p a then [x.read a rest] else []
      | [] => []
  | seq r₁ r₂, x => (r₁.run x).flatMap r₂.run
  | alt r₁ r₂, x => r₁.run x ++ r₂.run x
  | repeated r required more, x =>
      (times (fun x => r.run (x.forget r.groups)) required x).flatMap
        (upTo (fun x => r.run (x.forget r.groups)) more)
  | group index r, x => (r.run x).map fun y => y.capture index (x.textTo y)
  | start, x => if x.seen.isEmpty then [x] else []
  | stop, x => if x.rest.isEmpty then [x] else []
  | boundary word, x => if x.seen.head?.any word ≠ x.rest.head?.any word then [x] else []

/-- `std::regex_match`, with the groups that the first match of the whole text captures. -/
def regexMatch (r : Pattern α) (text : List α) : Option (List (ℕ × List α)) :=
  ((r.run ⟨[], text, []⟩).find? fun y => y.rest.isEmpty).map State.captures

/-- A lookahead `(?=r)` at the start of a text. -/
def startsWith (r : Pattern α) (text : List α) : Bool := !(r.run ⟨[], text, []⟩).isEmpty

/-- A pattern that need not match. -/
def optional (r : Pattern α) : Pattern α := .repeated r 0 1

end Pattern

/-! ## Characters -/

def single (c : Char) : Pattern Char := .char (· == c)

def range (first last : Char) : Pattern Char := .char fun c => first ≤ c && c ≤ last

/-- `\d`. -/
def digit : Pattern Char := .char Char.isDigit

/-- `\w`. -/
def isWordChar (c : Char) : Bool := c.isAlphanum || c == '_'

/-- `\s`. -/
def isSpace (c : Char) : Bool := c == ' ' || (9 ≤ c.toNat && c.toNat ≤ 13)

def space : Pattern Char := .char isSpace

/-- One of some characters. -/
def oneOf (chars : String) : Pattern Char := .char (chars.toList.contains ·)

/-- A fixed text. -/
def literal (text : String) : Pattern Char :=
  text.toList.foldr (fun c r => .seq (single c) r) .empty

/-- `\b`. -/
def wordBoundary : Pattern Char := .boundary isWordChar

end Regex
