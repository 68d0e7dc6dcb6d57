import TriviaServer.Model.Handlers
import TriviaServer.Model.Json

/-! # Serializing the responses

The text of a JSON value belongs to nlohmann::json and is a parameter, as bytes. -/

namespace TriviaServer

namespace ConversionHelper

/-- The loop of `jsonToSizeBytes`, from the last byte to the first: the last 8 bits are stored
and then removed. -/
def storeSize : ℕ → UInt32 → List UInt8 → List UInt8
  | 0, _, bytes => bytes
  | i + 1, size, bytes => storeSize i (size >>> 8) (bytes.set i (size &&& 0xFF).toUInt8)

/-- The size is an `unsigned int`. -/
def jsonToSizeBytes (dump : Json → List UInt8) (json : Json) : List UInt8 :=
  storeSize 4 (UInt32.ofNat (dump json).length) (List.replicate 4 0)

def unsignedToJson (n : UInt32) : Json := .numberUnsigned n.toUInt64

def playerToJson (player : Player) : Json :=
  .object
    [ ("username", .string player.username)
    , ("avatarColor", .string player.avatarColor)
    , ("score", unsignedToJson player.score) ]

def roomDataToJson (roomData : RoomDataResponse) : Json :=
  .object
    [ ("id", .string roomData.roomData.uuid)
    , ("name", .string roomData.roomData.name)
    , ("maxPlayers", unsignedToJson roomData.roomData.maxPlayers)
    , ("questionCount", unsignedToJson roomData.roomData.questionCount)
    , ("timePerQuestion", unsignedToJson roomData.roomData.timePerQuestion)
    , ("isActive", .boolean roomData.roomData.isActive)
    , ("players", .array (roomData.players.map playerToJson))
    , ("isFinished", .boolean roomData.isFinished) ]

def playerStatsToJson (playerStats : UserStatistics) : Json :=
  .object
    [ ("avgAnswerTime", (playerStats.averageAnswerTime.map unsignedToJson).getD .null)
    , ("correctAnswers", unsignedToJson playerStats.numOfCorrectAnswers)
    , ("wrongAnswers", unsignedToJson playerStats.numOfWrongAnswers)
    , ("totalAnswers", unsignedToJson playerStats.numOfTotalAnswers)
    , ("totalGames", unsignedToJson playerStats.numOfTotalGames)
    , ("score", unsignedToJson playerStats.userScore) ]

def playerResultToJson (playerResult : PlayerResult) : Json :=
  .object
    [ ("username", .string playerResult.username)
    , ("avatarColor", .string playerResult.avatarColor)
    , ("isOnline", .boolean playerResult.isOnline)
    , ("scoreChange", .numberInteger playerResult.scoreChange.toInt64)
    , ("correctAnswerCount", unsignedToJson playerResult.correctAnswerCount)
    , ("wrongAnswerCount", unsignedToJson playerResult.wrongAnswerCount)
    , ("avgAnswerTime", unsignedToJson playerResult.avgAnswerTime) ]

def userAnswerToJson (userAnswer : Question × UInt32 × UInt32) : Json :=
  .object
    [ ("question", .string userAnswer.1.question)
    , ("answers", .array (userAnswer.1.possibleAnswers.map .string))
    , ("correctAnswer", unsignedToJson userAnswer.1.correctAnswerIndex)
    , ("userAnswer", unsignedToJson userAnswer.2.1)
    , ("timeTaken", unsignedToJson userAnswer.2.2) ]

end ConversionHelper

/-! ## The overloads of `serializeResponse` -/

/-- The numeric values of `ResponseId`. -/
def Response.responseId : Response → UInt8
  | .error .. => 0
  | .login .. => 1
  | .signup .. => 2
  | .logout .. => 3
  | .getRooms .. => 4
  | .getPlayersInRoom .. => 5
  | .getHighscores .. => 6
  | .getPersonalStats .. => 7
  | .createRoom .. => 8
  | .joinRoom .. => 9
  | .getUserData .. => 10
  | .updateUserData .. => 11
  | .closeRoom .. => 12
  | .startGame .. => 13
  | .getRoomState .. => 14
  | .leaveRoom .. => 15
  | .leaveGame .. => 16
  | .getQuestion .. => 17
  | .submitAnswer .. => 18
  | .getGameResults .. => 19
  | .submitVerificationCode .. => 20
  | .resendVerificationCode .. => 21
  | .forgotPassword .. => 22

namespace JsonSerializer

open ConversionHelper

def statusToJson (status : Bool) : Json := .object [("status", .boolean status)]

def messageToJson (status : Bool) (message : String) : Json :=
  .object [("status", .boolean status), ("message", .string message)]

def playersToJson (status : Bool) (players : List Player) : Json :=
  .object [("status", .boolean status), ("players", .array (players.map playerToJson))]

def userDataToJson (userData : UserData) : Json :=
  .object
    [ ("username", .string userData.username)
    , ("email", .string userData.email)
    , ("address", .string userData.address)
    , ("phoneNumber", .string userData.phoneNumber)
    , ("birthday", .string userData.birthday)
    , ("avatarColor", .string userData.avatarColor)
    , ("memberSince", .numberInteger (.ofInt userData.memberSince)) ]

/-- The JSON value that each overload builds. -/
def toJson : Response → Json
  | .error errorMessage => .object [("message", .string errorMessage)]
  | .login status message => messageToJson status message
  | .signup status message => messageToJson status message
  | .logout status => statusToJson status
  | .getRooms status rooms =>
      .object [("status", .boolean status), ("rooms", .array (rooms.map roomDataToJson))]
  | .getPlayersInRoom status players => playersToJson status players
  | .getHighscores status statistics => playersToJson status statistics
  | .getPersonalStats status statistics =>
      .object [("status", .boolean status), ("statistics", playerStatsToJson statistics)]
  | .createRoom status => statusToJson status
  | .joinRoom status => statusToJson status
  | .getUserData status userData statistics =>
      .object
        [ ("status", .boolean status)
        , ("userData", userDataToJson userData)
        , ("userStatistics", playerStatsToJson statistics) ]
  | .updateUserData status message => messageToJson status message
  | .closeRoom status => statusToJson status
  | .startGame status => statusToJson status
  | .getRoomState response =>
      .object
        [ ("status", .boolean response.status)
        , ("hasGameBegun", .boolean response.hasGameBegun)
        , ("players", .array (response.players.map playerToJson))
        , ("questionCount", unsignedToJson response.questionCount)
        , ("answerTimeout", unsignedToJson response.answerTimeout)
        , ("maxPlayers", unsignedToJson response.maxPlayers)
        , ("isClosed", .boolean response.isClosed) ]
  | .leaveRoom status => statusToJson status
  | .leaveGame status => statusToJson status
  | .getQuestion status questionId question answers =>
      .object
        [ ("status", .boolean status)
        , ("questionId", unsignedToJson questionId)
        , ("question", .string question)
        , ("answers", .array (answers.map fun answer =>
            .array [unsignedToJson answer.1, .string answer.2])) ]
  | .submitAnswer status correctAnswerId =>
      .object
        [("status", .boolean status), ("correctAnswerId", unsignedToJson correctAnswerId)]
  | .getGameResults status userAnswers players =>
      .object
        [ ("status", .boolean status)
        , ("userAnswers", .array (userAnswers.map userAnswerToJson))
        , ("players", .array (players.map playerResultToJson)) ]
  | .submitVerificationCode status isVerified =>
      .object [("status", .boolean status), ("isVerified", .boolean isVerified)]
  | .resendVerificationCode status => statusToJson status
  | .forgotPassword status => statusToJson status

/-- The id byte, the size bytes and the text, which every overload appends in this order. -/
def serializeResponse (dump : Json → List UInt8) (response : Response) : List UInt8 :=
  response.responseId :: jsonToSizeBytes dump (toJson response) ++ dump (toJson response)

end JsonSerializer

/-- The bytes of `RequestResult::buffer`. -/
def RequestResult.bytes (dump : Json → List UInt8) (r : RequestResult) : List UInt8 :=
  match r.buffer with
  | some response => JsonSerializer.serializeResponse dump response
  | none => []

end TriviaServer
