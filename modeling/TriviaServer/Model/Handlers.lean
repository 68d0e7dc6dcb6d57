import TriviaServer.Model.Managers

/-! # Responses and the six request handlers -/

namespace TriviaServer

open TriviaServer.Action

/-! ## Responses -/

structure RoomDataResponse where
  roomData : RoomData
  isFinished : Bool
  players : List Player

structure GetRoomStateResponse where
  status : Bool
  hasGameBegun : Bool
  players : List Player
  questionCount : UInt32
  answerTimeout : UInt32
  maxPlayers : UInt32
  isClosed : Bool

structure PlayerResult where
  username : String
  avatarColor : String
  isOnline : Bool
  scoreChange : Int32
  correctAnswerCount : UInt32
  wrongAnswerCount : UInt32
  avgAnswerTime : UInt32

/-- The response structures, each under the name of its `ResponseId`. -/
inductive Response where
  | error (errorMessage : String)
  | login (status : Bool) (message : String)
  | signup (status : Bool) (message : String)
  | logout (status : Bool)
  | getRooms (status : Bool) (rooms : List RoomDataResponse)
  | getPlayersInRoom (status : Bool) (players : List Player)
  | getHighscores (status : Bool) (statistics : List Player)
  | getPersonalStats (status : Bool) (statistics : UserStatistics)
  | createRoom (status : Bool)
  | joinRoom (status : Bool)
  | getUserData (status : Bool) (userData : UserData) (statistics : UserStatistics)
  | updateUserData (status : Bool) (message : String)
  | closeRoom (status : Bool)
  | startGame (status : Bool)
  | getRoomState (response : GetRoomStateResponse)
  | leaveRoom (status : Bool)
  | leaveGame (status : Bool)
  | getQuestion (status : Bool) (questionId : UInt32) (question : String)
      (answers : List (UInt32 × String))
  | submitAnswer (status : Bool) (correctAnswerId : UInt32)
  | getGameResults (status : Bool) (userAnswers : List (Question × UInt32 × UInt32))
      (players : List PlayerResult)
  | submitVerificationCode (status isVerified : Bool)
  | resendVerificationCode (status : Bool)
  | forgotPassword (status : Bool)

/-- Whether the frame sent has the id of an `ErrorResponse`. -/
def Response.isError : Response → Bool
  | .error _ => true
  | _ => false

/-! ## Handlers -/

/-- A handler object with the data it keeps. A `Room&` or `Game&` is the uuid. -/
inductive Handler where
  | login
  | verification (tries : UInt32) (email currentVerificationCode username : String)
  | menu (user : LoggedUser)
  | roomMember (roomUuid roomName : String) (user : LoggedUser)
  | roomAdmin (room : String) (user : LoggedUser)
  | game (game : String) (user : LoggedUser)
  deriving DecidableEq, Repr

/-- The buffer to send, empty after the exits that answer nothing, and the handler to switch
to. `self` is the current handler object as the call leaves it. -/
structure RequestResult where
  buffer : Option Response
  newHandler : Option Handler := none
  self : Handler

/-- The handler that takes the next request. -/
def RequestResult.handler (r : RequestResult) : Handler := r.newHandler.getD r.self

/-- `Error::toRequestResult`. -/
def Error.toRequestResult (e : Error) (self : Handler) : RequestResult :=
  { buffer := some (.error e.message), self }

namespace RequestHandlerFactory

def createLoginRequestHandler : Handler := .login

def createMenuRequestHandler (user : LoggedUser) : Handler := .menu user

/-- The constructor copies the room's uuid and name. -/
def createRoomMemberRequestHandler (room : String) (user : LoggedUser) : Action Handler := do
  let metadata ← Action.room (.getMetadata room)
  return .roomMember room metadata.name user

def createRoomAdminRequestHandler (room : String) (user : LoggedUser) : Handler :=
  .roomAdmin room user

def createGameRequestHandler (game : String) (user : LoggedUser) : Handler := .game game user

def createVerificationRequestHandler (email verificationCode username : String) : Handler :=
  .verification 0 email verificationCode username

end RequestHandlerFactory

open RequestHandlerFactory

def notRelevant : Error := ⟨"Request is not relevant", .invalidRequest⟩

/-! ### Login -/

namespace LoginRequestHandler

variable (P : Platform)

def isRequestRelevant (request : RequestInfo) : Bool :=
  request.requestId ∈
    [.loginRequest, .signupRequest, .exit, .forgotPasswordRequest]

def login (request : RequestInfo) : Action RequestResult := do
  match ← lift (JsonDeserializer.deserializeLoginRequest (P.parse request.buffer)) with
  | .error e => return e.toRequestResult .login
  | .ok request =>
      match ← LoginManager.login request.username request.password with
      | .error e => return e.toRequestResult .login
      | .ok (true, _) =>
          return { buffer := some (.login true "")
                   newHandler := createMenuRequestHandler ⟨request.username⟩
                   self := .login }
      | .ok (false, message) =>
          return { buffer := some (.login false message), self := .login }

def signup (request : RequestInfo) : Action RequestResult := do
  match ← lift (JsonDeserializer.deserializeSignupRequest (P.parse request.buffer)) with
  | .error e => return e.toRequestResult .login
  | .ok request =>
      match ← LoginManager.signup P request.username request.password request.email
          request.address request.phoneNumber request.birthday with
      | .error e => return e.toRequestResult .login
      | .ok (false, message) =>
          return { buffer := some (.signup false message), self := .login }
      | .ok (true, _) =>
          let verificationCode ← external .generateRandom6DigitCode
          match ← external (.sendEmailVerification request.email verificationCode
              request.username) with
          | some e =>
              -- the signup is aborted
              UsersManager.removeUserUnverifiedUser request.username
              LoginManager.logout request.username
              return e.toRequestResult .login
          | none =>
              return { buffer := some (.signup true "")
                       newHandler := createVerificationRequestHandler request.email
                         verificationCode request.username
                       self := .login }

def forgotPassword (request : RequestInfo) : Action RequestResult := do
  match ← lift (JsonDeserializer.deserializeForgotPasswordRequest (P.parse request.buffer)) with
  | .error e => return e.toRequestResult .login
  | .ok request =>
      match ← LoginManager.forgotPassword request.email with
      | .error e => return e.toRequestResult .login
      | .ok status => return { buffer := some (.forgotPassword status), self := .login }

def handleRequest (request : RequestInfo) : Action RequestResult :=
  if !isRequestRelevant request then
    return (⟨"User not authorized", .invalidRequest⟩ : Error).toRequestResult .login
  else
    match request.requestId with
    | .loginRequest => login P request
    | .signupRequest => signup P request
    | .forgotPasswordRequest => forgotPassword P request
    | .exit => return { buffer := none, self := .login }
    | _ => return (⟨"User not authorized", .userNotAuthorized⟩ : Error).toRequestResult .login

end LoginRequestHandler

/-! ### Verification -/

namespace VerificationRequestHandler

variable (P : Platform) (tries : UInt32) (email currentVerificationCode username : String)

def isRequestRelevant (request : RequestInfo) : Bool :=
  request.requestId ∈
    [.submitVerificationCodeRequest, .exit, .resendVerificationCodeRequest]

def submitVerificationCode (request : RequestInfo) : Action RequestResult := do
  let self := Handler.verification tries email currentVerificationCode username
  match ← lift (JsonDeserializer.deserializeSubmitVerificationCodeRequest
      (P.parse request.buffer)) with
  | .error e => return e.toRequestResult self
  | .ok requestJson =>
      let self := Handler.verification (tries + 1) email currentVerificationCode username
      if requestJson.code = currentVerificationCode then
        return { buffer := some (.submitVerificationCode true true)
                 newHandler := createMenuRequestHandler ⟨username⟩
                 self }
      else if 5 ≤ tries + 1 then
        UsersManager.removeUserUnverifiedUser username
        LoginManager.logout username
        return { buffer := some (.submitVerificationCode false false)
                 newHandler := createLoginRequestHandler
                 self }
      else
        return { buffer := some (.submitVerificationCode true false), self }

def resendVerificationCode : Action RequestResult := do
  let verificationCode ← external .generateRandom6DigitCode
  match ← external (.sendEmailVerification email verificationCode username) with
  | some _ =>
      return { buffer := some (.resendVerificationCode false)
               self := .verification tries email currentVerificationCode username }
  | none =>
      return { buffer := some (.resendVerificationCode true)
               self := .verification tries email verificationCode username }

def abortSignupProcess : Action RequestResult := do
  UsersManager.removeUserUnverifiedUser username
  LoginManager.logout username
  return { buffer := some (.error "")
           newHandler := createLoginRequestHandler
           self := .verification tries email currentVerificationCode username }

def handleRequest (request : RequestInfo) : Action RequestResult :=
  let self := Handler.verification tries email currentVerificationCode username
  let notAuthorized : Error := ⟨"User not authorized", .invalidRequest⟩
  if !isRequestRelevant request then
    return notAuthorized.toRequestResult self
  else
    match request.requestId with
    | .submitVerificationCodeRequest =>
        submitVerificationCode P tries email currentVerificationCode username request
    | .resendVerificationCodeRequest =>
        resendVerificationCode tries email currentVerificationCode username
    | .exit => abortSignupProcess tries email currentVerificationCode username
    | _ => return notAuthorized.toRequestResult self

end VerificationRequestHandler

/-! ### Menu -/

namespace MenuRequestHandler

variable (P : Platform) (user : LoggedUser)

def isRequestRelevant (request : RequestInfo) : Bool :=
  request.requestId ∈
    [.logoutRequest, .getRoomsRequest, .getPlayersInRoomRequest, .getHighscoresRequest,
      .getPersonalStatsRequest, .joinRoomRequest, .createRoomRequest, .exit,
      .getUserDataRequest, .updateUserDataRequest]

def logout : Action RequestResult := do
  LoginManager.logout user.username
  return { buffer := some (.logout true)
           newHandler := createLoginRequestHandler
           self := .menu user }

/-- `room.isActive && getGameById(room.uuid).isFinished()`. -/
def isRoomFinished (room : RoomData) : Action Bool := do
  if room.isActive then
    let g ← GameManager.getGameById room.uuid
    Action.game (.isFinished g)
  else
    return false

/-- The loop of `getRooms` over the metadata it copied first. -/
def roomsResponse : List RoomData → Action (List RoomDataResponse)
  | [] => return []
  | room :: rest => do
      match ← RoomManager.getRoom room.uuid with
      | .error _ => roomsResponse rest
      | .ok r =>
          let users ← Action.room (.getAllUsers r)
          match ← UsersManager.transformLoggedUsersToPlayers users with
          | .error _ => roomsResponse rest
          | .ok players =>
              let isFinished ← isRoomFinished room
              let rooms ← roomsResponse rest
              return ⟨room, isFinished, players⟩ :: rooms

def getRooms : Action RequestResult := do
  let roomsData ← RoomManager.getRooms
  let rooms ← roomsResponse roomsData
  return { buffer := some (.getRooms true rooms), self := .menu user }

def getPlayersInRoom (request : RequestInfo) : Action RequestResult := do
  match ← lift (JsonDeserializer.deserializeGetPlayersInRoomRequest (P.parse request.buffer)) with
  | .error e => return e.toRequestResult (.menu user)
  | .ok request =>
      match ← RoomManager.getRoom request.roomId with
      | .error _ => return { buffer := some (.getPlayersInRoom false []), self := .menu user }
      | .ok room =>
          let users ← Action.room (.getAllUsers room)
          match ← UsersManager.transformLoggedUsersToPlayers users with
          | .error _ => return { buffer := some (.getPlayersInRoom false []), self := .menu user }
          | .ok players =>
              return { buffer := some (.getPlayersInRoom true players), self := .menu user }

def getPersonalStatistics : Action RequestResult := do
  match ← StatisticsManager.getUserStatistics user.username with
  | .error e => return e.toRequestResult (.menu user)
  | .ok statistics =>
      return { buffer := some (.getPersonalStats true statistics), self := .menu user }

def getHighScores : Action RequestResult := do
  match ← StatisticsManager.getHighScores with
  | .error e => return e.toRequestResult (.menu user)
  | .ok highScores =>
      return { buffer := some (.getHighscores true highScores), self := .menu user }

/-- There is no check whether the room is active. -/
def joinRoom (request : RequestInfo) : Action RequestResult := do
  match ← lift (JsonDeserializer.deserializeJoinRoomRequest (P.parse request.buffer)) with
  | .error e => return e.toRequestResult (.menu user)
  | .ok request =>
      match ← RoomManager.getRoom request.roomId with
      | .error e => return e.toRequestResult (.menu user)
      | .ok room =>
          match ← Action.room (.addUser room user) with
          | some _ => return { buffer := some (.joinRoom false), self := .menu user }
          | none =>
              let newHandler ← createRoomMemberRequestHandler room user
              return { buffer := some (.joinRoom true), newHandler, self := .menu user }

def isValidRoomDetails (roomData : RoomData) : Bool :=
  4 ≤ roomData.name.utf8ByteSize && 1 < roomData.maxPlayers && 2 ≤ roomData.questionCount &&
    5 ≤ roomData.timePerQuestion

def createRoom (request : RequestInfo) : Action RequestResult := do
  match ← lift (JsonDeserializer.deserializeCreateRoomRequest (P.parse request.buffer)) with
  | .error e => return e.toRequestResult (.menu user)
  | .ok request =>
      -- the uuid is generated in the manager
      let roomData : RoomData :=
        { uuid := "", name := request.roomName, maxPlayers := request.maxPlayers
          questionCount := request.questionCount, timePerQuestion := request.timePerQuestion
          isActive := false }
      if !isValidRoomDetails roomData then
        return { buffer := some (.createRoom false), self := .menu user }
      else
        let room ← RoomManager.createRoom user roomData
        return { buffer := some (.createRoom true)
                 newHandler := createRoomAdminRequestHandler room user
                 self := .menu user }

def getUserData : Action RequestResult := do
  match ← UsersManager.getUserData user.username with
  | .error e => return e.toRequestResult (.menu user)
  | .ok userData =>
      match ← StatisticsManager.getUserStatistics user.username with
      | .error e => return e.toRequestResult (.menu user)
      | .ok statistics =>
          return { buffer := some (.getUserData true userData statistics), self := .menu user }

def updateUserData (request : RequestInfo) : Action RequestResult := do
  match ← lift (JsonDeserializer.deserializeUpdateUserDataRequest (P.parse request.buffer)) with
  | .error e => return e.toRequestResult (.menu user)
  | .ok userData =>
      let isValidData := UsersManager.isValidUserData P userData
      if !isValidData.1 then
        return { buffer := some (.updateUserData false isValidData.2), self := .menu user }
      else
        match ← UsersManager.updateUserData userData user.username with
        | some e => return e.toRequestResult (.menu user)
        | none => return { buffer := some (.updateUserData true ""), self := .menu user }

/-- The handler `logout` switches to on an exit is dropped. -/
def exit : Action RequestResult := do
  let _ ← logout user
  return { buffer := none, self := .menu user }

def handleRequest (request : RequestInfo) : Action RequestResult :=
  if !isRequestRelevant request then
    return notRelevant.toRequestResult (.menu user)
  else
    match request.requestId with
    | .logoutRequest => logout user
    | .getRoomsRequest => getRooms user
    | .getPlayersInRoomRequest => getPlayersInRoom P user request
    | .getHighscoresRequest => getHighScores user
    | .getPersonalStatsRequest => getPersonalStatistics user
    | .joinRoomRequest => joinRoom P user request
    | .createRoomRequest => createRoom P user request
    | .getUserDataRequest => getUserData user
    | .updateUserDataRequest => updateUserData P user request
    | .exit => exit user
    | _ => return notRelevant.toRequestResult (.menu user)

end MenuRequestHandler

/-! ### Rooms -/

namespace RoomMemberRequestHandler

variable (roomUuid roomName : String) (user : LoggedUser)

def isRequestRelevant (request : RequestInfo) : Bool :=
  request.requestId ∈ [.leaveRoomRequest, .getRoomStateRequest, .exit]

/-- The room of an active game is left through the game, and never erased here. -/
def leaveRoom : Action RequestResult := do
  let self := Handler.roomMember roomUuid roomName user
  match ← RoomManager.getRoomState roomUuid with
  | none =>
      return { buffer := some (.leaveRoom false)
               newHandler := createMenuRequestHandler user
               self }
  | some roomState =>
      if roomState.roomData.isActive then
        let _ ← GameManager.removePlayerFromGameById roomUuid user
        Action.room (.removeUser roomUuid user)
        return { buffer := some (.leaveRoom true)
                 newHandler := createMenuRequestHandler user
                 self }
      else
        Action.room (.removeUser roomUuid user)
        return { buffer := some (.leaveRoom true)
                 newHandler := createMenuRequestHandler user
                 self }

def getRoomState : Action RequestResult := do
  let self := Handler.roomMember roomUuid roomName user
  match ← RoomManager.getRoomState roomUuid with
  | none =>
      return { buffer := some (.getRoomState ⟨true, false, [], 0, 0, 0, true⟩)
               newHandler := createMenuRequestHandler user
               self }
  | some roomState =>
      match ← UsersManager.transformLoggedUsersToPlayers roomState.users with
      | .error e => return e.toRequestResult self
      | .ok players =>
          let response : GetRoomStateResponse :=
            ⟨true, roomState.roomData.isActive, players, roomState.roomData.questionCount,
              roomState.roomData.timePerQuestion, roomState.roomData.maxPlayers, false⟩
          if response.hasGameBegun then
            let game ← GameManager.getGameById roomUuid
            return { buffer := some (.getRoomState response)
                     newHandler := createGameRequestHandler game user
                     self }
          else
            return { buffer := some (.getRoomState response), self }

def leaveRoomAndExit : Action RequestResult := do
  LoginManager.logout user.username
  leaveRoom roomUuid roomName user

def handleRequest (request : RequestInfo) : Action RequestResult :=
  let self := Handler.roomMember roomUuid roomName user
  if !isRequestRelevant request then
    return notRelevant.toRequestResult self
  else
    match request.requestId with
    | .leaveRoomRequest => leaveRoom roomUuid roomName user
    | .getRoomStateRequest => getRoomState roomUuid roomName user
    | .exit => leaveRoomAndExit roomUuid roomName user
    | _ => return { buffer := none, self }

end RoomMemberRequestHandler

namespace RoomAdminRequestHandler

variable (room : String) (user : LoggedUser)

def isRequestRelevant (request : RequestInfo) : Bool :=
  request.requestId ∈ [.closeRoomRequest, .startGameRequest, .getRoomStateRequest, .exit]

def closeRoom : Action RequestResult := do
  let metadata ← Action.room (.getMetadata room)
  RoomManager.deleteRoom metadata.uuid
  return { buffer := some (.closeRoom true)
           newHandler := createMenuRequestHandler user
           self := .roomAdmin room user }

/-- The room becomes active only after the game has been created. -/
def startGame : Action RequestResult := do
  let users ← Action.room (.getAllUsers room)
  if users.length ≤ 1 then
    return (Error.ofType .notEnoughPlayers).toRequestResult (.roomAdmin room user)
  else
    match ← GameManager.createGame room with
    | .error e => return e.toRequestResult (.roomAdmin room user)
    | .ok game =>
        Action.room (.setIsActive room true)
        return { buffer := some (.startGame true)
                 newHandler := createGameRequestHandler game user
                 self := .roomAdmin room user }

def getRoomState : Action RequestResult := do
  let metadata ← Action.room (.getMetadata room)
  let roomState ← RoomManager.getRoomState metadata.uuid
  let users ← Action.room (.getAllUsers room)
  match ← UsersManager.transformLoggedUsersToPlayers users with
  | .error e => return e.toRequestResult (.roomAdmin room user)
  | .ok players =>
      match roomState with
      | none => Action.throw .emptyRoomState
      | some roomState =>
          return { buffer := some (.getRoomState ⟨true, roomState.roomData.isActive, players,
                     roomState.roomData.questionCount, roomState.roomData.timePerQuestion,
                     roomState.roomData.maxPlayers, false⟩)
                   self := .roomAdmin room user }

def closeRoomAndExit : Action RequestResult := do
  LoginManager.logout user.username
  closeRoom room user

def handleRequest (request : RequestInfo) : Action RequestResult :=
  if !isRequestRelevant request then
    return notRelevant.toRequestResult (.roomAdmin room user)
  else
    match request.requestId with
    | .closeRoomRequest => closeRoom room user
    | .startGameRequest => startGame room user
    | .getRoomStateRequest => getRoomState room user
    | .exit => closeRoomAndExit room user
    | _ => return notRelevant.toRequestResult (.roomAdmin room user)

end RoomAdminRequestHandler

/-! ### Games -/

namespace GameRequestHandler

variable (P : Platform) (game : String) (user : LoggedUser)

def isRequestRelevant (request : RequestInfo) : Bool :=
  request.requestId ∈
    [.leaveGameRequest, .getQuestionRequest, .submitAnswerRequest, .getGameResultsRequest,
      .exit]

def getQuestion : Action RequestResult := do
  if ← Action.game (.isFinished game) then
    return (⟨"Game is already finished", .invalidRequest⟩ : Error).toRequestResult
      (.game game user)
  else
    let question ← Action.game (.getCurrentQuestion game)
    let answers := question.2.possibleAnswers.mapIdx fun i answer => (UInt32.ofNat i, answer)
    return { buffer := some (.getQuestion true question.1 question.2.question answers)
             self := .game game user }

def submitAnswer (request : RequestInfo) : Action RequestResult := do
  match ← lift (JsonDeserializer.deserializeSubmitAnswerRequest (P.parse request.buffer)) with
  | .error e => return e.toRequestResult (.game game user)
  | .ok request =>
      if ← Action.game (.isFinished game) then
        return (⟨"Game is already finished", .invalidRequest⟩ : Error).toRequestResult
          (.game game user)
      else
        match ← TriviaServer.submitAnswer game user request.answerId request.questionId with
        | .error e => return e.toRequestResult (.game game user)
        | .ok correctAnswer =>
            return { buffer := some (.submitAnswer true correctAnswer), self := .game game user }

/-- One entry of the results; `usersMap.at` throws for a name the game does not have. -/
def playerResult (usersMap : Std.TreeMap LoggedUser GameData) (onlinePlayers : List LoggedUser)
    (player : Player) : Except Fault PlayerResult :=
  match usersMap[(⟨player.username⟩ : LoggedUser)]? with
  | none => .error .playerNotFound
  | some playerGameData => do
      let avgAnswerTime ← playerGameData.getAverageAnswerTime
      return { username := player.username, avatarColor := player.avatarColor
               isOnline := onlinePlayers.any (·.username = player.username)
               scoreChange := Int32.ofInt playerGameData.scoreChange
               correctAnswerCount := playerGameData.getNumOfCorrectAnswers
               wrongAnswerCount := playerGameData.getNumOfWrongAnswers
               avgAnswerTime }

def getGameResults : Action RequestResult := do
  if !(← Action.game (.isFinished game)) then
    return (⟨"Game is not yet finished", .invalidRequest⟩ : Error).toRequestResult
      (.game game user)
  else
    let usersMap ← Action.game (.getPlayersResults game)
    let onlinePlayers ← Action.game (.getOnlinePlayers game)
    match ← UsersManager.transformLoggedUsersToPlayers usersMap.keys with
    | .error e => return e.toRequestResult (.game game user)
    | .ok players =>
        let playerResults ← lift (players.mapM (playerResult usersMap onlinePlayers))
        match usersMap[user]? with
        | none => Action.throw .playerNotFound
        | some data =>
            return { buffer := some (.getGameResults true data.answers playerResults)
                     self := .game game user }

/-- Whether the game is finished only matters for the log. On an error of the booking the
player stays in the room's list. -/
def leaveGame : Action RequestResult := do
  let _ ← Action.game (.isFinished game)
  match ← GameManager.removePlayerFromGame game user with
  | some _ =>
      return { buffer := some (.leaveGame true)
               newHandler := createMenuRequestHandler user
               self := .game game user }
  | none =>
      RoomManager.removePlayerFromRoom game user
      return { buffer := some (.leaveGame true)
               newHandler := createMenuRequestHandler user
               self := .game game user }

def leaveGameAndExit : Action RequestResult := do
  LoginManager.logout user.username
  leaveGame game user

def handleRequest (request : RequestInfo) : Action RequestResult :=
  if !isRequestRelevant request then
    return notRelevant.toRequestResult (.game game user)
  else
    match request.requestId with
    | .leaveGameRequest => leaveGame game user
    | .getQuestionRequest => getQuestion game user
    | .submitAnswerRequest => submitAnswer P game user request
    | .getGameResultsRequest => getGameResults game user
    | .exit => leaveGameAndExit game user
    | _ => return notRelevant.toRequestResult (.game game user)

end GameRequestHandler

/-- The virtual call `request_handler->handleRequest(request)`. -/
def Handler.handleRequest (P : Platform) : Handler → RequestInfo → Action RequestResult
  | .login, request => LoginRequestHandler.handleRequest P request
  | .verification tries email code username, request =>
      VerificationRequestHandler.handleRequest P tries email code username request
  | .menu user, request => MenuRequestHandler.handleRequest P user request
  | .roomMember roomUuid roomName user, request =>
      RoomMemberRequestHandler.handleRequest roomUuid roomName user request
  | .roomAdmin room user, request => RoomAdminRequestHandler.handleRequest room user request
  | .game g user, request => GameRequestHandler.handleRequest P g user request

end TriviaServer
