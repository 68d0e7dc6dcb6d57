import TriviaServer.Model.Basic
import Mathlib.Data.Rat.Defs
import Mathlib.Data.Rat.Floor

/-! # JSON values and the request deserializers

Parsing a buffer belongs to nlohmann::json and is a parameter of the model; everything the
deserializers do with the parsed value is below. -/

namespace TriviaServer

/-- The kinds of values nlohmann::json distinguishes. A finite double is a rational. -/
inductive Json where
  | null
  | boolean (b : Bool)
  | numberUnsigned (n : UInt64)
  | numberInteger (n : Int64)
  | numberFloat (x : ℚ)
  | string (s : String)
  | array (elements : List Json)
  | object (fields : List (String × Json))

namespace Json

/-- `j.contains(key)`, false on anything that is not an object. -/
def contains : Json → String → Bool
  | .object fields, key => (fields.lookup key).isSome
  | _, _ => false

/-- `j[key]` of a key that is present; a missing key of an object yields null. -/
def get : Json → String → Json
  | .object fields, key => (fields.lookup key).getD .null
  | _, _ => .null

def isString : Json → Bool
  | .string _ => true
  | _ => false

def isNull : Json → Bool
  | .null => true
  | _ => false

def isNumberUnsigned : Json → Bool
  | .numberUnsigned _ => true
  | _ => false

/-- The implicit conversion to `std::string`. -/
def toString : Json → Except Fault String
  | .string s => .ok s
  | _ => .error .jsonType

/-- The implicit conversion to `unsigned int`: numbers are narrowed by `static_cast`,
booleans are 0 and 1, and every other kind throws. -/
def toUInt32 : Json → Except Fault UInt32
  | .numberUnsigned n => .ok n.toUInt32
  | .numberInteger n => .ok n.toUInt64.toUInt32
  | .numberFloat x => .ok (UInt32.ofInt (x.num.tdiv x.den))
  | .boolean b => .ok (if b then 1 else 0)
  | _ => .error .jsonType

end Json

namespace JsonDeserializer

def invalid (message : String) : Error := ⟨message, .deserializationError⟩

/-- Every deserializer first parses the buffer without exceptions. -/
def parsed {α : Type} (j : Option Json) (f : Json → Except Fault (Result α)) :
    Except Fault (Result α) :=
  match j with
  | none => .ok (.error (invalid "Invalid JSON"))
  | some j => f j

def deserializeLoginRequest (j : Option Json) : Except Fault (Result LoginRequest) :=
  parsed j fun j =>
    if !j.contains "username" || !j.contains "password" then
      .ok (.error (invalid "JSON is missing field 'username' or 'password'"))
    else if !(j.get "username").isString || !(j.get "password").isString then
      .ok (.error (invalid "Invalid JSON. 'username' or 'password' is not a string"))
    else do
      let username ← (j.get "username").toString
      let password ← (j.get "password").toString
      return .ok { username, password }

def deserializeSignupRequest (j : Option Json) : Except Fault (Result SignupRequest) :=
  parsed j fun j =>
    if !j.contains "username" || !j.contains "password" || !j.contains "email" ||
        !j.contains "address" || !j.contains "phoneNumber" || !j.contains "birthday" then
      .ok (.error (invalid "JSON is missing field 'username', 'password', 'email', 'address', 'phoneNumber', or 'birthday'"))
    else if !(j.get "username").isString || !(j.get "password").isString ||
        !(j.get "email").isString || !(j.get "address").isString ||
        !(j.get "phoneNumber").isString || !(j.get "birthday").isString then
      .ok (.error (invalid "Invalid JSON. 'username', 'password', 'email', 'address', 'phoneNumber', or 'birthday' is not a string"))
    else do
      let username ← (j.get "username").toString
      let password ← (j.get "password").toString
      let email ← (j.get "email").toString
      let address ← (j.get "address").toString
      let phoneNumber ← (j.get "phoneNumber").toString
      let birthday ← (j.get "birthday").toString
      return .ok { username, password, email, address, phoneNumber, birthday }

/-- The two requests that carry nothing but a room's id. -/
def deserializeRoomId (j : Option Json) : Except Fault (Result String) :=
  parsed j fun j =>
    if !j.contains "roomId" then
      .ok (.error (invalid "JSON is missing field 'roomId'"))
    else if !(j.get "roomId").isString then
      .ok (.error (invalid "Invalid JSON. 'roomId' is not a uuid string"))
    else do
      let roomId ← (j.get "roomId").toString
      return .ok roomId

def deserializeGetPlayersInRoomRequest (j : Option Json) :
    Except Fault (Result GetPlayersInRoomRequest) := do
  let r ← deserializeRoomId j
  return r.map fun roomId => { roomId }

def deserializeJoinRoomRequest (j : Option Json) : Except Fault (Result JoinRoomRequest) := do
  let r ← deserializeRoomId j
  return r.map fun roomId => { roomId }

def deserializeCreateRoomRequest (j : Option Json) : Except Fault (Result CreateRoomRequest) :=
  parsed j fun j =>
    if !j.contains "name" || !j.contains "maxPlayers" || !j.contains "questionCount" ||
        !j.contains "timePerQuestion" then
      .ok (.error (invalid "JSON is missing field 'name', 'maxPlayers', 'questionCount', or 'timePerQuestion'"))
    else if !(j.get "name").isString || !(j.get "maxPlayers").isNumberUnsigned ||
        !(j.get "questionCount").isNumberUnsigned ||
        !(j.get "timePerQuestion").isNumberUnsigned then
      .ok (.error (invalid "Invalid JSON. 'name', 'maxPlayers', 'questionCount', or 'timePerQuestion' is not a string or number"))
    else do
      let roomName ← (j.get "name").toString
      let maxPlayers ← (j.get "maxPlayers").toUInt32
      let questionCount ← (j.get "questionCount").toUInt32
      let timePerQuestion ← (j.get "timePerQuestion").toUInt32
      return .ok { roomName, maxPlayers, questionCount, timePerQuestion }

def deserializeUpdateUserDataRequest (j : Option Json) :
    Except Fault (Result UpdateUserDataRequest) :=
  parsed j fun j =>
    if !j.contains "password" || !j.contains "address" || !j.contains "phoneNumber" ||
        !j.contains "avatarColor" then
      .ok (.error (invalid "JSON is missing field 'password', 'email', 'address', 'phoneNumber', or 'avatarColor'"))
    else if !((j.get "password").isString || (j.get "password").isNull) ||
        !(j.get "address").isString || !(j.get "phoneNumber").isString ||
        !(j.get "avatarColor").isString then
      .ok (.error (invalid "Invalid JSON. 'password', 'email', 'address', 'phoneNumber', or 'avatarColor' is not a string. (password can be null)"))
    else do
      let password ← if (j.get "password").isString then
          some <$> (j.get "password").toString
        else
          pure none
      let address ← (j.get "address").toString
      let phoneNumber ← (j.get "phoneNumber").toString
      let avatarColor ← (j.get "avatarColor").toString
      return .ok { password, address, phoneNumber, avatarColor }

/-- The condition is a comma expression, so only the kind of `questionId` decides. -/
def deserializeSubmitAnswerRequest (j : Option Json) : Except Fault (Result SubmitAnswerRequest) :=
  parsed j fun j =>
    if !j.contains "answerId" || !j.contains "questionId" then
      .ok (.error (invalid "JSON is missing field 'answerId' or 'questionId'"))
    else if !(j.get "questionId").isNumberUnsigned then
      .ok (.error (invalid "Invalid JSON. 'answerId' or 'questionId' is not a number"))
    else do
      let answerId ← (j.get "answerId").toUInt32
      let questionId ← (j.get "questionId").toUInt32
      return .ok { answerId, questionId }

def deserializeSubmitVerificationCodeRequest (j : Option Json) :
    Except Fault (Result SubmitVerificationCodeRequest) :=
  parsed j fun j =>
    if !j.contains "code" then
      .ok (.error (invalid "JSON is missing field 'verificationCode'"))
    else if !(j.get "code").isString then
      .ok (.error (invalid "Invalid JSON. 'verificationCode' is not a string"))
    else do
      let code ← (j.get "code").toString
      return .ok { code }

def deserializeForgotPasswordRequest (j : Option Json) :
    Except Fault (Result ForgotPasswordRequest) :=
  parsed j fun j =>
    if !j.contains "email" then
      .ok (.error (invalid "JSON is missing field 'email'"))
    else if !(j.get "email").isString then
      .ok (.error (invalid "Invalid JSON. 'email' is not a string"))
    else do
      let email ← (j.get "email").toString
      return .ok { email }

end JsonDeserializer

end TriviaServer
