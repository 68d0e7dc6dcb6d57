import TriviaServer.Interaction.Discipline
import TriviaServer.Verification.Reading

/-! # The standing of a connection

Where a connection stands between its signup or login and its logout: whether it holds a name
in the list of logged users, and whether an account of its own still waits for its code. -/

namespace TriviaServer

open Interaction
open Program (Only OnlyThen)

inductive Standing where
  /-- No name is held, and no account is waiting. -/
  | out
  /-- A signup has inserted this account and not yet entered its name. -/
  | inserted (account : User)
  /-- The name is held, and the account waits for the code that was mailed last. -/
  | entered (id : ℕ) (name : String) (mailed : Option String)
  /-- The account has been removed; the name is still held. -/
  | leaving (name : String)
  /-- The name is held, through a login or by the accepted code. -/
  | member (name : String)
  deriving DecidableEq

namespace Standing

/-- The name held in the list of logged users. -/
def held : Standing → Option String
  | out => none
  | inserted _ => none
  | entered _ name _ => some name
  | leaving name => some name
  | member name => some name

/-- The connection's own account that has not been verified. -/
def pending : Standing → Option (ℕ × String)
  | inserted account => some (account.id, account.username)
  | entered id name _ => some (id, name)
  | _ => none

/-- How a call changes the standing. -/
def called (st : Standing) : Event operations → Standing
  | ⟨.database (.insertUser row), some id⟩ => inserted { row with id }
  | ⟨.database (.removeUser _), some _⟩ =>
      match st with
      | entered _ name _ => leaving name
      | _ => st
  | ⟨.login (.tryLogin name), true⟩ =>
      match st with
      | inserted account => entered account.id account.username none
      | _ => member name
  | ⟨.login (.tryLogin _), false⟩ =>
      match st with
      | inserted _ => out
      | _ => st
  | ⟨.login (.logout name), _⟩ => if st.held = some name then out else st
  | ⟨.external (.sendEmailVerification _ code _), none⟩ =>
      match st with
      | entered id name _ => entered id name (some code)
      | _ => st
  | _ => st

end Standing

section Server

variable (P : Platform)

/-- The code that a request submits, if it is well formed. -/
def submittedCode (request : RequestInfo) : Option String :=
  if request.requestId = .submitVerificationCodeRequest then
    match JsonDeserializer.deserializeSubmitVerificationCodeRequest (P.parse request.buffer) with
    | .ok (.ok r) => some r.code
    | _ => none
  else
    none

/-- How the end of a request changes the standing: the right code verifies the account, and a
signup that ends before its login leaves the account behind. -/
def Standing.finished (st : Standing) (request : RequestInfo) : Standing :=
  match st with
  | .inserted _ => .out
  | .entered _ name (some code) => if submittedCode P request = some code then .member name else st
  | st => st

abbrev ServerObservation : Type := Observation operations Session RequestInfo RequestResult

def Standing.observe (st : Standing) : ServerObservation → Standing
  | .received _ _ => st
  | .called e => st.called e
  | .finished _ request _ _ => st.finished P request

/-- What a connection may do where it stands. With `dbSucceeds` a name is only let go after
the account that waits for its code has been removed. -/
def Standing.Allowed (dbSucceeds : Bool) (st : Standing) : Op → Prop
  | .login (.tryLogin name) =>
      st = .out ∨ ∃ account, st = .inserted account ∧ account.username = name
  | .login (.logout name) =>
      st.held = some name ∧ (dbSucceeds = true → ∀ id mailed, st ≠ .entered id name mailed)
  | .database (.insertUser _) => st = .out
  | .database (.removeUser id) => ∃ name mailed, st = .entered id name mailed
  | .database (.updateUser name _ _ _ _) => st = .member name
  | _ => True

/-- What a connection may count on: its own account is found under its name, and as it was
inserted until the name is entered. -/
def Standing.Assumed (dbSucceeds : Bool) (st : Standing) : Event operations → Prop
  | ⟨.database (.selectUserIds name), ids⟩ => dbSucceeds = true → ∀ account,
      st = .inserted account → account.username = name → ids = some [account.id]
  | ⟨.database (.getUsers name), users⟩ =>
      (∀ user rest, users = some (user :: rest) → ∀ id, st.pending = some (id, name) →
        user.id = id) ∧
      (dbSucceeds = true → (∀ account, st = .inserted account → account.username = name →
        users = some [account]) ∧ ∀ id mailed, st = .entered id name mailed →
        ∃ user rest, users = some (user :: rest))
  | ⟨.database (.removeUser _), removed⟩ => dbSucceeds = true → removed = some ()
  | _ => True

/-- The discipline of the connections. -/
def connections (dbSucceeds : Bool) :
    Discipline operations Session RequestInfo RequestResult Standing where
  initial := .out
  observe := Standing.observe P
  allowed := Standing.Allowed dbSucceeds
  assumed := Standing.Assumed dbSucceeds
  mayFinish st _ _ _ := dbSucceeds = true → ∀ account, st ≠ .inserted account

end Server

/-- The user of a handler behind the verification. -/
def Handler.player : Handler → Option LoggedUser
  | .login => none
  | .verification .. => none
  | .menu user => some user
  | .roomMember _ _ user => some user
  | .roomAdmin _ user => some user
  | .game _ user => some user

/-- The standings that fit a handler between two requests. -/
def Handler.Stands : Handler → Standing → Prop
  | .login, st => st = .out
  | .verification _ _ code username, st => ∃ id, st = .entered id username (some code)
  | .menu user, st => st = .member user.username
  | .roomMember _ _ user, st => st = .member user.username
  | .roomAdmin _ user, st => st = .member user.username
  | .game _ user, st => st = .member user.username

theorem Handler.stands_of_player {h : Handler} {user : LoggedUser} (hp : h.player = some user) :
    h.Stands (.member user.username) := by
  cases h <;> cases hp <;> rfl

end TriviaServer
