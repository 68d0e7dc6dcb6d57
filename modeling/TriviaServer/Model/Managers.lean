import TriviaServer.Model.Operations
import TriviaServer.Model.Validator

/-! # The database class and the managers

Methods that take a lock or call the database several times are programs over the
operations. An optional error is an `Option Error`, as in the source. -/

namespace TriviaServer

open TriviaServer.Action

/-- The value of a call, or the error its `catch` block returns. -/
def catchWith {α : Type} (message : String) : Option α → Result α
  | some a => .ok a
  | none => .error ⟨message, .database⟩

def avatarColorToString (avatarColorNumber : UInt8) : String :=
  match avatarColorNumber.toNat with
  | 0 => "Red"
  | 1 => "Blue"
  | 2 => "Green"
  | 3 => "Purple"
  | 4 => "Orange"
  | 5 => "Cyan"
  | 6 => "Teal"
  | 7 => "Pink"
  | _ => "unknown"

def colorNameToColor (colorName : String) : Option AvatarColor :=
  if colorName = "Blue" then some .blue
  else if colorName = "Green" then some .green
  else if colorName = "Red" then some .red
  else if colorName = "Purple" then some .purple
  else if colorName = "Orange" then some .orange
  else if colorName = "Cyan" then some .cyan
  else if colorName = "Teal" then some .teal
  else if colorName = "Pink" then some .pink
  else none

namespace SqliteDatabase

def doesUserExist (username : String) : Action (Result Bool) := do
  let users ← db (.selectUserIds username)
  return (catchWith "Failed to check if User exists" users).map fun users => !users.isEmpty

def getUser (username : String) : Action (Result User) := do
  match ← db (.getUsers username) with
  | none => return .error ⟨"Failed to get User", .database⟩
  | some [] => return .error ⟨"User not found", .notFound⟩
  | some (user :: _) => return .ok user

def doesPasswordMatch (userName password : String) : Action (Result Bool) := do
  match ← getUser userName with
  | .error e => return .error e
  | .ok user => return .ok (user.password = password)

def doesEmailExist (email : String) : Action (Result Bool) := do
  let usersWithEmail ← db (.selectUserIdsByEmail email)
  return (catchWith "Failed to check if email exists" usersWithEmail).map
    fun usersWithEmail => !usersWithEmail.isEmpty

def addUser (userName password email address phoneNumber birthday : String)
    (avatarColor : AvatarColor) : Action (Option Error) := do
  let memberSince ← external .time
  let user : User :=
    { username := userName, password, email, address, phoneNumber, birthday
      avatarColor := avatarColor.toByte, memberSince }
  match ← doesUserExist userName with
  | .error e => return some e
  | .ok true => return some ⟨"User already exists", .alreadyExists⟩
  | .ok false =>
      match ← doesEmailExist email with
      | .error e => return some e
      | .ok true => return some ⟨"Email already taken", .alreadyExists⟩
      | .ok false =>
          match ← db (.insertUser user) with
          | some _ => return none
          | none => return some ⟨"Could not add User to database", .database⟩

def getQuestionsCount : Action (Result UInt32) := do
  let count ← db .countQuestions
  return (catchWith "Failed to get questions count" count).map UInt32.ofNat

def addQuestion (question : QuestionDb) : Action (Option Error) := do
  match ← db (.insertQuestion question) with
  | some _ => return none
  | none => return some ⟨"Failed to add question", .database⟩

def addQuestions : List QuestionDb → Action Unit
  | [] => return ()
  | question :: rest => do
      let _ ← addQuestion question
      addQuestions rest

/-- The part both branches of `getQuestions` end with. -/
def pickQuestions (amount : UInt32) : Action (Result (List QuestionDb)) := do
  match ← db (.getRandomQuestions amount) with
  | none => return .error ⟨"Failed to get questions", .database⟩
  | some questions =>
      if questions.length ≠ amount.toNat then
        return .error ⟨"Failed to get questions", .database⟩
      else
        return .ok questions

def getQuestions (amount : UInt32) : Action (Result (List QuestionDb)) := do
  match ← getQuestionsCount with
  | .error e => return .error e
  | .ok questionsCount =>
      let minExtraQuestions : UInt32 := 20
      -- the difference is unsigned and wraps while fewer than 20 questions are stored
      if amount ≤ questionsCount - minExtraQuestions then
        pickQuestions amount
      else
        let questionsToAdd := amount - (questionsCount - minExtraQuestions)
        match ← external (.fetchQuestions questionsToAdd) with
        | .error e => return .error e
        | .ok questions => do
            addQuestions questions
            pickQuestions amount

def toPlayer (row : String × UInt8 × UInt32) : Player :=
  ⟨row.1, avatarColorToString row.2.1, row.2.2⟩

def getHighScores : Action (Result (List Player)) := do
  let players ← db .selectHighScores
  return (catchWith "Failed to get high scores" players).map (List.map toPlayer)

def updateUser (userData : UpdateUserDataRequest) (username : String) :
    Action (Option Error) := do
  match colorNameToColor userData.avatarColor with
  | none => return some ⟨"Invalid avatar color", .invalidRequest⟩
  | some avatarColor =>
      match ← db (.updateUser username userData.address userData.phoneNumber
          userData.password avatarColor.toByte) with
      | some _ => return none
      | none => return some ⟨"Failed to update user", .database⟩

def getUserData (username : String) : Action (Result UserData) := do
  match ← db (.selectUserData username) with
  | some [user] =>
      return .ok
        { username := user.username, email := user.email, address := user.address
          phoneNumber := user.phoneNumber, birthday := user.birthday
          avatarColor := avatarColorToString user.avatarColor
          memberSince := user.memberSince }
  | _ => return .error ⟨"Failed to get user data", .database⟩

def getPlayerByName (username : String) : Action (Result Player) := do
  match ← getUser username with
  | .error e => return .error e
  | .ok user =>
      match ← db (.selectPlayer user.id) with
      | none => return .error ⟨"Failed to get player by name", .database⟩
      | some [] => return .error ⟨"Player not found", .notFound⟩
      | some (player :: _) => return .ok (toPlayer player)

/-- An average of 0 stands for no average. -/
def toUserStatistics (row : Statistics) : UserStatistics where
  averageAnswerTime := if 0 < row.avgAnswerTime then some row.avgAnswerTime else none
  numOfCorrectAnswers := row.correctAnswers
  numOfWrongAnswers := row.wrongAnswers
  numOfTotalGames := row.totalGames
  userScore := row.score

def getUserStatistics (username : String) : Action (Result (ℕ × UserStatistics)) := do
  match ← db (.selectStatistics username) with
  | none => return .error ⟨"Failed to get user statistics", .database⟩
  | some [] =>
      return .error ⟨"User '" ++ username ++ "' has no statistics in database", .notFound⟩
  | some (stats :: _) => return .ok (stats.2, toUserStatistics stats.1)

/-- The new average, all in `unsigned int`. -/
def newAverage (userStats : UserStatistics) (gameData : GameData) : Except Fault UInt32 :=
  let answers := gameData.getNumOfCorrectAnswers + gameData.getNumOfWrongAnswers
  match userStats.averageAnswerTime with
  | none => gameData.getAverageAnswerTime
  | some average => do
      let gameAverage ← gameData.getAverageAnswerTime
      if userStats.numOfTotalAnswers + answers = 0 then
        .error .undefinedArithmetic
      else
        .ok ((average * userStats.numOfTotalAnswers + gameAverage * answers) /
          (userStats.numOfTotalAnswers + answers))

def newScore (userStats : UserStatistics) (gameData : GameData) : UInt32 :=
  let score : ℤ := userStats.userScore.toNat + gameData.scoreChange
  if 0 ≤ score then UInt32.ofInt score else 0

def submitGameStatistics (gameData : GameData) (user : String) : Action (Option Error) := do
  match ← getUserStatistics user with
  | .error e => return some e
  | .ok (userId, userStats) =>
      let avgAnswerTime ← lift (newAverage userStats gameData)
      match ← db (.updateStatistics
          { userId
            totalGames := userStats.numOfTotalGames + 1
            correctAnswers := userStats.numOfCorrectAnswers + gameData.getNumOfCorrectAnswers
            wrongAnswers := userStats.numOfWrongAnswers + gameData.getNumOfWrongAnswers
            avgAnswerTime
            score := newScore userStats gameData }) with
      | some _ => return none
      | none => return some ⟨"Failed to submit game statistics", .database⟩

/-- `user.value()` of an error throws inside the `try`. -/
def removeUser (username : String) : Action (Option Error) := do
  match ← getUser username with
  | .error _ => return some ⟨"Failed to remove user", .database⟩
  | .ok user =>
      match ← db (.removeUser user.id) with
      | some _ => return none
      | none => return some ⟨"Failed to remove user", .database⟩

def getUserPasswordByEmail (email : String) : Action (Result String) := do
  match ← db (.getUsersByEmail email) with
  | none => return .error ⟨"Failed to get user password", .database⟩
  | some [] => return .error ⟨"User not found", .notFound⟩
  | some (user :: _) => return .ok user.password

end SqliteDatabase

namespace LoginManager

variable (P : Platform)

def isValidSignupCredentials (username password email address phoneNumber birthday : String) :
    Bool × String :=
  firstInvalid
    [ Validator.isValidUsername username
    , Validator.isValidEmail P email
    , Validator.isValidAddress P address
    , Validator.isValidPhoneNumber P phoneNumber
    , P.isValidBirthday birthday
    , Validator.isValidPassword P password ]

def login (username password : String) : Action (Result (Bool × String)) := do
  match ← SqliteDatabase.doesUserExist username with
  | .error e => return .error e
  | .ok false => return .ok (false, "User does not exist")
  | .ok true =>
      match ← SqliteDatabase.doesPasswordMatch username password with
      | .error e => return .error e
      | .ok false => return .ok (false, "Password does not match")
      | .ok true =>
          if ← Action.login (.tryLogin username) then
            return .ok (true, "")
          else
            return .ok (false, "User already logged in")

def signup (username password email address phoneNumber birthday : String) :
    Action (Result (Bool × String)) := do
  let credentials :=
    isValidSignupCredentials P username password email address phoneNumber birthday
  if !credentials.1 then
    return .ok (false, credentials.2)
  else
    let avatarColor ← external .getRandomAvatarColor
    match ← SqliteDatabase.addUser username password email address phoneNumber birthday
        avatarColor with
    | some e =>
        if e.type ≠ .database then return .ok (false, e.message) else return .error e
    | none => login username password

def logout (username : String) : Action Unit := Action.login (.logout username)

def forgotPassword (email : String) : Action (Result Bool) := do
  match ← SqliteDatabase.getUserPasswordByEmail email with
  | .error _ => return .ok false
  | .ok password =>
      match ← external (.sendEmailPasswordRecovery email password) with
      | some e => return .error e
      | none => return .ok true

end LoginManager

namespace RoomManager

/-- The room's reference is its uuid. -/
def createRoom (admin : LoggedUser) (roomData : RoomData) : Action String := do
  let roomUUID ← room .generateRoomUUID
  room (.emplaceRoom roomUUID ⟨{ roomData with uuid := roomUUID }, [admin]⟩)
  return roomUUID

def deleteRoom (roomUUID : String) : Action Unit := room (.deleteRoom roomUUID)

def getRooms : Action (List RoomData) := room .getRooms

def getRoom (roomUUID : String) : Action (Result String) := do
  if ← room (.findRoom roomUUID) then
    return .ok roomUUID
  else
    return .error ⟨"Room not found", .notFound⟩

def getRoomState (roomUUID : String) : Action (Option RoomState) := room (.getRoomState roomUUID)

/-- The users are locked for each access on its own, and others may join in between. -/
def removePlayerFromRoom (roomUUID : String) (user : LoggedUser) : Action Unit := do
  room (.removeUserAt roomUUID user)
  if (← room (.getAllUsersAt roomUUID)).isEmpty then
    room (.eraseRoom roomUUID)

end RoomManager

namespace GameManager

/-- `Question(question)` for each stored question; the constructor shuffles the answers. -/
def toQuestions : List QuestionDb → Action (List Question)
  | [] => return []
  | question :: rest => do
      let shuffled ← external (.shuffle question.answers)
      let questions ← toQuestions rest
      return .ofDb question shuffled :: questions

/-- The game's reference is its uuid. -/
def createGame (room : String) : Action (Result String) := do
  let metadata ← Action.room (.getMetadata room)
  match ← SqliteDatabase.getQuestions metadata.questionCount with
  | .error e => return .error e
  | .ok questionsDb =>
      let metadata ← Action.room (.getMetadata room)
      if questionsDb.length ≠ metadata.questionCount.toNat then
        return .error ⟨"Not enough questions found", .notFound⟩
      else
        let questions ← toQuestions questionsDb
        let players ← Action.room (.getAllUsers room)
        let metadata ← Action.room (.getMetadata room)
        game (.pushGame questions players metadata.uuid metadata.timePerQuestion)
        return .ok metadata.uuid

def getGameById (id : String) : Action String := do
  game (.getGameById id)
  return id

/-- The loop of `submitAllGameStatsToDB` over its copy of the results. -/
def submitResults (gameId : String) : List (LoggedUser × GameData) → Action Unit
  | [] => return ()
  | (player, gameData) :: rest => do
      if gameData.isScoreSubmittedToDB then
        submitResults gameId rest
      else
        game (.markUserResultsAsSubmittedToDB gameId player)
        game (.submitting gameId player gameData)
        let _ ← SqliteDatabase.submitGameStatistics gameData player.username
        submitResults gameId rest

def submitAllGameStatsToDB (gameId : String) : Action Unit := do
  let g ← getGameById gameId
  let playersResults ← game (.getPlayersResults g)
  submitResults g playersResults.toList

/-! `removePlayerFromGame(Game &, ...)`, one definition for each `if` of its body. -/

def punishLeaver (g : String) (user : LoggedUser) : Action Unit := do
  if !(← game (.isFinished g)) then
    game (.punishPlayer g user)

/-- Somebody who leaves before the end is booked immediately. -/
def submitLeaver (g : String) (user : LoggedUser) : Action (Option Error) := do
  if !(← game (.isFinished g)) then
    game (.markUserResultsAsSubmittedToDB g user)
    let playersResults ← game (.getPlayersResults g)
    match playersResults[user]? with
    | none => Action.throw .playerNotFound
    | some gameData =>
        game (.submitting g user gameData)
        SqliteDatabase.submitGameStatistics gameData user.username
  else
    return none

def submitIfFinished (g : String) : Action Unit := do
  if ← game (.isFinished g) then
    submitAllGameStatsToDB g

def eraseIfEmpty (g : String) : Action Unit := do
  let onlinePlayers ← game (.getOnlinePlayers g)
  if onlinePlayers.isEmpty then
    game (.eraseGame g)

/-- The clock is read three times. -/
def removePlayerFromGame (g : String) (user : LoggedUser) : Action (Option Error) := do
  punishLeaver g user
  game (.removePlayer g user)
  let submitResult ← submitLeaver g user
  submitIfFinished g
  eraseIfEmpty g
  return submitResult

/-- `removePlayerFromGame(const std::string &, ...)`. -/
def removePlayerFromGameById (gameId : String) (user : LoggedUser) : Action (Option Error) := do
  let g ← getGameById gameId
  removePlayerFromGame g user

end GameManager

namespace UsersManager

variable (P : Platform)

def getUserData (username : String) : Action (Result UserData) :=
  SqliteDatabase.getUserData username

def updateUserData (userData : UpdateUserDataRequest) (username : String) :
    Action (Option Error) :=
  SqliteDatabase.updateUser userData username

def isValidUserData (userData : UpdateUserDataRequest) : Bool × String :=
  firstInvalid
    ([ Validator.isValidAddress P userData.address
     , Validator.isValidPhoneNumber P userData.phoneNumber ] ++
      match userData.password with
      | some password => [Validator.isValidPassword P password]
      | none => [])

def getPlayerByName (username : String) : Action (Result Player) :=
  SqliteDatabase.getPlayerByName username

def transformLoggedUsersToPlayers : List LoggedUser → Action (Result (List Player))
  | [] => return .ok []
  | user :: rest => do
      match ← getPlayerByName user.username with
      | .error e => return .error e
      | .ok player =>
          match ← transformLoggedUsersToPlayers rest with
          | .error e => return .error e
          | .ok players => return .ok (player :: players)

def removeUserUnverifiedUser (username : String) : Action Unit := do
  let _ ← SqliteDatabase.removeUser username

end UsersManager

namespace StatisticsManager

def getHighScores : Action (Result (List Player)) := SqliteDatabase.getHighScores

def getUserStatistics (username : String) : Action (Result UserStatistics) := do
  match ← SqliteDatabase.getUserStatistics username with
  | .error e => return .error e
  | .ok res => return .ok res.2

end StatisticsManager

/-- `Game::submitAnswer`, from the check through the sleep to the record. -/
def submitAnswer (g : String) (user : LoggedUser) (answerIndex questionIndex : UInt32) :
    Action (Result UInt32) := do
  match ← game (.checkAnswer g answerIndex questionIndex) with
  | .error e => return .error e
  | .ok (currQuestionReleaseTime, answerTime) =>
      game (.sleepUntilReleased g currQuestionReleaseTime)
      let correctAnswer ← game (.recordAnswer g user answerIndex questionIndex answerTime)
      return .ok correctAnswer

end TriviaServer
