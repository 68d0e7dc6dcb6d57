import Mathlib.Data.Int.Notation
import Mathlib.Data.Nat.Notation
import Std.Data.TreeMap

/-! # Errors, requests and the records the server passes around -/

namespace TriviaServer

inductive ErrorType where
  | unknown | database | invalidRequest | socket | disconnectedClient
  | invalidSignupCredentials | invalidLoginCredentials | deserializationError | notFound
  | alreadyExists | userNotAuthorized | notImplemented | httpError | roomIsFull
  | notEnoughPlayers
  deriving DecidableEq, Repr

structure Error where
  message : String := "Unknown error"
  type : ErrorType := .unknown
  deriving DecidableEq, Repr

/-- The predefined messages of `Error(ErrorType)`. -/
def Error.ofType (type : ErrorType) : Error where
  type := type
  message := match type with
    | .database => "Database error"
    | .invalidRequest => "Invalid request"
    | .socket => "Socket error"
    | .disconnectedClient => "Client disconnected"
    | .invalidSignupCredentials => "Invalid signup credentials"
    | .invalidLoginCredentials => "Invalid login credentials"
    | .deserializationError => "Deserialization error"
    | .notFound => "Not found"
    | .alreadyExists => "Already exists"
    | .userNotAuthorized => "User not authorized"
    | .notImplemented => "Not implemented"
    | .httpError => "Http error"
    | .roomIsFull => "Room is full"
    | .notEnoughPlayers => "Not enough players in room"
    | .unknown => "Unknown error"

/-- `Result<T>`, a variant of a value and an `Error`. -/
abbrev Result (α : Type) := Except Error α

/-- What ends the server: an exception that nothing catches, or undefined behaviour. -/
inductive Fault where
  /-- `_games.at` in `GameManager::getGameById` (out_of_range). -/
  | gameNotFound
  /-- A reference to a game that is no longer in `_games`. -/
  | erasedGame
  /-- `_players.at(user)`, on the game or on a copy of its map (out_of_range). -/
  | playerNotFound
  /-- `_rooms.at(roomUUID)` (out_of_range). -/
  | roomNotFound
  /-- A reference to a room that is no longer in `_rooms`. -/
  | erasedRoom
  /-- `roomState.value()` on an empty optional. -/
  | emptyRoomState
  /-- `_questions[i]` or `answers[i]` past the end. -/
  | questionIndex
  /-- A quotient by zero, as by `_timePerQuestion + 5` when that sum wraps, or a `double` above
  `UINT_MAX` that is converted to an `unsigned int`. -/
  | undefinedArithmetic
  /-- `Result::value()` or `Result::error()` on the other alternative. -/
  | badVariantAccess
  /-- nlohmann's `type_error`, thrown by a conversion of a value of another kind. -/
  | jsonType
  /-- nlohmann's `out_of_range`, thrown by the parser at a number that overflows a `double`. -/
  | jsonOutOfRange
  deriving DecidableEq, Repr

/-! ## Requests -/

inductive RequestId where
  | loginRequest | signupRequest | logoutRequest | getRoomsRequest | getPlayersInRoomRequest
  | getHighscoresRequest | getPersonalStatsRequest | createRoomRequest | joinRoomRequest
  | getUserDataRequest | updateUserDataRequest | closeRoomRequest | startGameRequest
  | getRoomStateRequest | leaveRoomRequest | leaveGameRequest | getQuestionRequest
  | submitAnswerRequest | getGameResultsRequest | submitVerificationCodeRequest
  | resendVerificationCodeRequest | forgotPasswordRequest | exit
  deriving DecidableEq, Repr

/-- The numeric values of the enumeration. -/
def RequestId.toByte : RequestId → UInt8
  | .loginRequest => 1
  | .signupRequest => 2
  | .logoutRequest => 3
  | .getRoomsRequest => 4
  | .getPlayersInRoomRequest => 5
  | .getHighscoresRequest => 6
  | .getPersonalStatsRequest => 7
  | .createRoomRequest => 8
  | .joinRoomRequest => 9
  | .getUserDataRequest => 10
  | .updateUserDataRequest => 11
  | .closeRoomRequest => 12
  | .startGameRequest => 13
  | .getRoomStateRequest => 14
  | .leaveRoomRequest => 15
  | .leaveGameRequest => 16
  | .getQuestionRequest => 17
  | .submitAnswerRequest => 18
  | .getGameResultsRequest => 19
  | .submitVerificationCodeRequest => 20
  | .resendVerificationCodeRequest => 21
  | .forgotPasswordRequest => 22
  | .exit => 99

structure RequestInfo where
  requestId : RequestId
  buffer : List UInt8
  deriving DecidableEq, Repr

structure LoginRequest where
  username : String
  password : String

structure SignupRequest where
  username : String
  password : String
  email : String
  address : String
  phoneNumber : String
  birthday : String

structure GetPlayersInRoomRequest where
  roomId : String

structure JoinRoomRequest where
  roomId : String

structure CreateRoomRequest where
  roomName : String
  maxPlayers : UInt32
  questionCount : UInt32
  timePerQuestion : UInt32

structure UpdateUserDataRequest where
  password : Option String
  address : String
  phoneNumber : String
  avatarColor : String

structure SubmitAnswerRequest where
  answerId : UInt32
  questionId : UInt32

structure SubmitVerificationCodeRequest where
  code : String

structure ForgotPasswordRequest where
  email : String

/-! ## Users and rooms -/

/-- Logged users are compared by name. -/
structure LoggedUser where
  username : String
  deriving DecidableEq, Repr

instance : Ord LoggedUser := ⟨compareOn LoggedUser.username⟩

instance : Std.TransOrd LoggedUser :=
  inferInstanceAs (Std.TransCmp (compareOn LoggedUser.username))

instance : Std.LawfulEqOrd LoggedUser where
  eq_of_compare {a b} h := by
    have hname : compare a.username b.username = .eq := h
    cases a
    cases b
    exact congrArg LoggedUser.mk (Std.LawfulEqCmp.eq_of_compare hname)

structure RoomData where
  uuid : String
  name : String
  maxPlayers : UInt32
  questionCount : UInt32
  timePerQuestion : UInt32
  isActive : Bool
  deriving DecidableEq, Repr

structure Room where
  metadata : RoomData
  users : List LoggedUser
  deriving DecidableEq, Repr

structure RoomState where
  roomData : RoomData
  users : List LoggedUser

inductive AvatarColor where
  | red | blue | green | purple | orange | cyan | teal | pink
  deriving DecidableEq, Repr

/-- `static_cast<uint8_t>(avatarColor)`. -/
def AvatarColor.toByte : AvatarColor → UInt8
  | .red => 0
  | .blue => 1
  | .green => 2
  | .purple => 3
  | .orange => 4
  | .cyan => 5
  | .teal => 6
  | .pink => 7

structure Player where
  username : String
  avatarColor : String
  score : UInt32
  deriving DecidableEq, Repr

/-- `numOfTotalAnswers` is computed by the constructor as the sum of the two counters. -/
structure UserStatistics where
  averageAnswerTime : Option UInt32
  numOfCorrectAnswers : UInt32
  numOfWrongAnswers : UInt32
  numOfTotalGames : UInt32
  userScore : UInt32
  deriving DecidableEq, Repr

def UserStatistics.numOfTotalAnswers (s : UserStatistics) : UInt32 :=
  s.numOfCorrectAnswers + s.numOfWrongAnswers

structure UserData where
  username : String
  email : String
  address : String
  phoneNumber : String
  birthday : String
  avatarColor : String
  memberSince : ℤ
  deriving DecidableEq, Repr

end TriviaServer
