import TriviaServer.Interaction.Locks
import TriviaServer.Model.Server

/-! # The mutexes

The same server with its locks. Most of them are held for one operation; the functions that
hold one for longer are written out. A `std::lock_guard` and a `std::unique_lock` take a mutex
alone and a `std::shared_lock` shares it, up to the end of their scope. -/

namespace TriviaServer

open Interaction

inductive Mutex where
  | loggedUsersMutex
  | dbMutex
  | roomsMutex
  | usersMutex (room : String)
  | gamesMutex
  | onlinePlayersMutex (game : String)
  | playersMutex (game : String)
  deriving DecidableEq, Repr

/-- Code of the server with its locks. -/
abbrev LockingAction (α : Type) : Type := Program (operations.locking Mutex) α

def lockGuard {α : Type} (mutex : Mutex) (scope : LockingAction α) : LockingAction α :=
  Program.within mutex .exclusive scope

def sharedLock {α : Type} (mutex : Mutex) (scope : LockingAction α) : LockingAction α :=
  Program.within mutex .shared scope

/-! ## Operations -/

/-- The locks around an operation on a room. The mutex of a room that is not there is taken by
nobody else, and the parts of `removePlayerFromRoom` come under `_roomsMutex` besides. -/
def RoomOp.inLocks {α : Type} (o : RoomOp) (scope : LockingAction α) : LockingAction α :=
  match o with
  | .generateRoomUUID => sharedLock .roomsMutex scope
  | .emplaceRoom _ _ => lockGuard .roomsMutex scope
  | .deleteRoom _ => lockGuard .roomsMutex scope
  | .getRooms => sharedLock .roomsMutex scope
  | .findRoom _ => sharedLock .roomsMutex scope
  | .getRoomState roomUUID =>
      sharedLock .roomsMutex (sharedLock (.usersMutex roomUUID) scope)
  | .removeUserAt roomUUID _ => lockGuard (.usersMutex roomUUID) scope
  | .getAllUsersAt roomUUID => sharedLock (.usersMutex roomUUID) scope
  | .eraseRoom _ => scope
  | .addUser room _ => lockGuard (.usersMutex room) scope
  | .removeUser room _ => lockGuard (.usersMutex room) scope
  | .getAllUsers room => sharedLock (.usersMutex room) scope
  | .getMetadata _ => scope
  | .setIsActive _ _ => scope

/-- The locks around an operation on a game. Marking a player takes the mutex of the online
players, and recording an answer takes none. -/
def GameOp.inLocks {α : Type} (o : GameOp) (scope : LockingAction α) : LockingAction α :=
  match o with
  | .getGameById _ => sharedLock .gamesMutex scope
  | .punishPlayer game _ => lockGuard (.playersMutex game) scope
  | .removePlayer game _ => lockGuard (.onlinePlayersMutex game) scope
  | .markUserResultsAsSubmittedToDB game _ => lockGuard (.onlinePlayersMutex game) scope
  | .getPlayersResults game => sharedLock (.playersMutex game) scope
  | .getOnlinePlayers game => sharedLock (.onlinePlayersMutex game) scope
  | .pushGame .. => lockGuard .gamesMutex scope
  | .eraseGame _ => lockGuard .gamesMutex scope
  | .isFinished _ | .getCurrentQuestion _ | .checkAnswer .. | .sleepUntilReleased .. |
      .recordAnswer .. | .submitting .. => scope

def Op.inLocks (o : Op) : LockingAction o.Answer :=
  match o with
  | .login o => lockGuard .loggedUsersMutex (Program.act (S := operations) (.login o))
  | .database o => lockGuard .dbMutex (Program.act (S := operations) (.database o))
  | .room o => o.inLocks (Program.act (S := operations) (.room o))
  | .game o => o.inLocks (Program.act (S := operations) (.game o))
  | .external o => Program.act (S := operations) (.external o)

/-- Code that holds no mutex from one operation to the next. -/
def locked {α : Type} (p : Action α) : LockingAction α := p.locked Op.inLocks

/-! ## What the operations touch -/

/-- What the threads share. The rest of a room or a game never changes after its construction,
and nobody has a reference to it before. -/
inductive SharedData where
  | loggedUsers
  | database
  | rooms
  | users (room : String)
  | isActive (room : String)
  /-- The rest of a room. -/
  | room (room : String)
  | games
  | onlinePlayers (game : String)
  | players (game : String) (user : LoggedUser)
  /-- The rest of a game. -/
  | game (game : String)
  deriving DecidableEq, Repr

/-- The data of a room. -/
@[simp] def SharedData.OfRoom (uuid : String) : SharedData → Prop
  | .users id | .isActive id | .room id => id = uuid
  | _ => False

/-- The data of a game. -/
@[simp] def SharedData.OfGame (uuid : String) : SharedData → Prop
  | .onlinePlayers id | .players id _ | .game id => id = uuid
  | _ => False

/-- What an operation on a room reads and does not write. -/
@[simp] def RoomOp.Loads : RoomOp → SharedData → Prop
  | .generateRoomUUID, data => data = .rooms
  | .getRooms, data => data = .rooms ∨ ∃ room, data = .isActive room ∨ data = .room room
  | .findRoom _, data => data = .rooms
  | .getRoomState room, data =>
      data = .rooms ∨ data = .isActive room ∨ data = .users room ∨ data = .room room
  | .removeUserAt room _, data => data = .rooms ∨ data = .room room
  | .getAllUsersAt room, data => data = .rooms ∨ data = .users room ∨ data = .room room
  | .addUser room _, data => data = .room room
  | .removeUser room _, data => data = .room room
  | .getAllUsers room, data => data = .users room ∨ data = .room room
  | .getMetadata room, data => data = .isActive room ∨ data = .room room
  | .setIsActive room _, data => data = .room room
  | .emplaceRoom _ _, _ | .deleteRoom _, _ | .eraseRoom _, _ => False

/-- What an operation on a room destroys, with no regard to the references to it. -/
@[simp] def RoomOp.Destroys : RoomOp → SharedData → Prop
  | .deleteRoom room, data => data.OfRoom room
  | .eraseRoom room, data => data.OfRoom room
  | _, _ => False

@[simp] def RoomOp.Stores : RoomOp → SharedData → Prop
  | .emplaceRoom _ _, data => data = .rooms
  | .deleteRoom room, data => data = .rooms ∨ data.OfRoom room
  | .eraseRoom room, data => data = .rooms ∨ data.OfRoom room
  | .removeUserAt room _, data => data = .users room
  | .addUser room _, data => data = .users room
  | .removeUser room _, data => data = .users room
  | .setIsActive room _, data => data = .isActive room
  | _, _ => False

/-- What an operation on a game reads and does not write. The list is searched by the games'
uuids. -/
@[simp] def GameOp.Loads : GameOp → SharedData → Prop
  | .getGameById _, data => data = .games ∨ ∃ game, data = .game game
  | .eraseGame uuid, data => ∃ game, game ≠ uuid ∧ data = .game game
  | .getPlayersResults game, data => (∃ user, data = .players game user) ∨ data = .game game
  | .getOnlinePlayers game, data => data = .onlinePlayers game ∨ data = .game game
  | .isFinished game, data => data = .game game
  | .punishPlayer game _, data => data = .game game
  | .removePlayer game _, data => data = .game game
  | .markUserResultsAsSubmittedToDB game _, data => data = .game game
  | .getCurrentQuestion game, data => data = .game game
  | .checkAnswer game _ _, data => data = .game game
  | .sleepUntilReleased game _, data => data = .game game
  | .recordAnswer game .., data => data = .game game
  | .pushGame .., _ | .submitting .., _ => False

@[simp] def GameOp.Destroys : GameOp → SharedData → Prop
  | .eraseGame game, data => data.OfGame game
  | _, _ => False

@[simp] def GameOp.Stores : GameOp → SharedData → Prop
  | .pushGame .., data => data = .games
  | .eraseGame game, data => data = .games ∨ data.OfGame game
  | .removePlayer game _, data => data = .onlinePlayers game
  | .punishPlayer game user, data => data = .players game user
  | .markUserResultsAsSubmittedToDB game user, data => data = .players game user
  | .recordAnswer game user _ _ _, data => data = .players game user
  | _, _ => False

@[simp] def Op.Loads : Op → SharedData → Prop
  | .room o, data => o.Loads data
  | .game o, data => o.Loads data
  | _, _ => False

@[simp] def Op.Destroys : Op → SharedData → Prop
  | .room o, data => o.Destroys data
  | .game o, data => o.Destroys data
  | _, _ => False

/-- Every call of the database uses the one connection to it. -/
@[simp] def Op.Stores : Op → SharedData → Prop
  | .login _, data => data = .loggedUsers
  | .database _, data => data = .database
  | .room o, data => o.Stores data
  | .game o, data => o.Stores data
  | .external _, _ => False

namespace Locking

/-! ## Rooms and games -/

/-- `_roomsMutex` is held over all of it, and that of the users for each access on its own. -/
def removePlayerFromRoom (roomUUID : String) (user : LoggedUser) : LockingAction Unit :=
  lockGuard .roomsMutex do
    locked (Action.room (.removeUserAt roomUUID user))
    let users ← locked (Action.room (.getAllUsersAt roomUUID))
    if users.isEmpty then
      locked (Action.room (.eraseRoom roomUUID))

def createGame (room : String) : LockingAction (Result String) := do
  let metadata ← locked (Action.room (.getMetadata room))
  match ← locked (SqliteDatabase.getQuestions metadata.questionCount) with
  | .error e => return .error e
  | .ok questionsDb =>
      let metadata ← locked (Action.room (.getMetadata room))
      if questionsDb.length ≠ metadata.questionCount.toNat then
        return .error ⟨"Not enough questions found", .notFound⟩
      else
        let questions ← locked (GameManager.toQuestions questionsDb)
        lockGuard .gamesMutex do
          let players ← locked (Action.room (.getAllUsers room))
          let metadata ← locked (Action.room (.getMetadata room))
          Program.act (S := operations)
            (.game (.pushGame questions players metadata.uuid metadata.timePerQuestion))
          return .ok metadata.uuid

/-- The list is shared while all results are submitted. -/
def submitAllGameStatsToDB (gameId : String) : LockingAction Unit := do
  let g ← locked (GameManager.getGameById gameId)
  sharedLock .gamesMutex do
    let playersResults ← locked (Action.game (.getPlayersResults g))
    locked (GameManager.submitResults g playersResults.toList)

def submitIfFinished (g : String) : LockingAction Unit := do
  if ← locked (Action.game (.isFinished g)) then
    submitAllGameStatsToDB g

def removePlayerFromGame (g : String) (user : LoggedUser) : LockingAction (Option Error) := do
  locked (GameManager.punishLeaver g user)
  locked (Action.game (.removePlayer g user))
  let submitResult ← locked (GameManager.submitLeaver g user)
  submitIfFinished g
  locked (GameManager.eraseIfEmpty g)
  return submitResult

/-- `getGameById` shares the mutex that is shared already. -/
def removePlayerFromGameById (gameId : String) (user : LoggedUser) :
    LockingAction (Option Error) := do
  let g ← sharedLock .gamesMutex (locked (GameManager.getGameById gameId))
  removePlayerFromGame g user

/-! ## Handlers -/

namespace RoomMemberRequestHandler

variable (roomUuid roomName : String) (user : LoggedUser)

def leaveRoom : LockingAction RequestResult := do
  let self := Handler.roomMember roomUuid roomName user
  match ← locked (RoomManager.getRoomState roomUuid) with
  | none =>
      return { buffer := some (.leaveRoom false)
               newHandler := RequestHandlerFactory.createMenuRequestHandler user
               self }
  | some roomState =>
      if roomState.roomData.isActive then
        let _ ← removePlayerFromGameById roomUuid user
        locked (Action.room (.removeUser roomUuid user))
        return { buffer := some (.leaveRoom true)
                 newHandler := RequestHandlerFactory.createMenuRequestHandler user
                 self }
      else
        locked (Action.room (.removeUser roomUuid user))
        return { buffer := some (.leaveRoom true)
                 newHandler := RequestHandlerFactory.createMenuRequestHandler user
                 self }

def leaveRoomAndExit : LockingAction RequestResult := do
  locked (LoginManager.logout user.username)
  leaveRoom roomUuid roomName user

def handleRequest (request : RequestInfo) : LockingAction RequestResult :=
  let self := Handler.roomMember roomUuid roomName user
  if !TriviaServer.RoomMemberRequestHandler.isRequestRelevant request then
    return notRelevant.toRequestResult self
  else
    match request.requestId with
    | .leaveRoomRequest => leaveRoom roomUuid roomName user
    | .getRoomStateRequest =>
        locked (TriviaServer.RoomMemberRequestHandler.getRoomState roomUuid roomName user)
    | .exit => leaveRoomAndExit roomUuid roomName user
    | _ => return { buffer := none, self }

end RoomMemberRequestHandler

namespace RoomAdminRequestHandler

variable (room : String) (user : LoggedUser)

def startGame : LockingAction RequestResult := do
  let users ← locked (Action.room (.getAllUsers room))
  if users.length ≤ 1 then
    return (Error.ofType .notEnoughPlayers).toRequestResult (.roomAdmin room user)
  else
    match ← createGame room with
    | .error e => return e.toRequestResult (.roomAdmin room user)
    | .ok game =>
        locked (Action.room (.setIsActive room true))
        return { buffer := some (.startGame true)
                 newHandler := RequestHandlerFactory.createGameRequestHandler game user
                 self := .roomAdmin room user }

def handleRequest (request : RequestInfo) : LockingAction RequestResult :=
  if !TriviaServer.RoomAdminRequestHandler.isRequestRelevant request then
    return notRelevant.toRequestResult (.roomAdmin room user)
  else
    match request.requestId with
    | .closeRoomRequest => locked (TriviaServer.RoomAdminRequestHandler.closeRoom room user)
    | .startGameRequest => startGame room user
    | .getRoomStateRequest => locked (TriviaServer.RoomAdminRequestHandler.getRoomState room user)
    | .exit => locked (TriviaServer.RoomAdminRequestHandler.closeRoomAndExit room user)
    | _ => return notRelevant.toRequestResult (.roomAdmin room user)

end RoomAdminRequestHandler

namespace GameRequestHandler

variable (P : Platform) (game : String) (user : LoggedUser)

def leaveGame : LockingAction RequestResult := do
  let _ ← locked (Action.game (.isFinished game))
  match ← removePlayerFromGame game user with
  | some _ =>
      return { buffer := some (.leaveGame true)
               newHandler := RequestHandlerFactory.createMenuRequestHandler user
               self := .game game user }
  | none =>
      removePlayerFromRoom game user
      return { buffer := some (.leaveGame true)
               newHandler := RequestHandlerFactory.createMenuRequestHandler user
               self := .game game user }

def leaveGameAndExit : LockingAction RequestResult := do
  locked (LoginManager.logout user.username)
  leaveGame game user

def handleRequest (request : RequestInfo) : LockingAction RequestResult :=
  if !TriviaServer.GameRequestHandler.isRequestRelevant request then
    return notRelevant.toRequestResult (.game game user)
  else
    match request.requestId with
    | .leaveGameRequest => leaveGame game user
    | .getQuestionRequest => locked (TriviaServer.GameRequestHandler.getQuestion game user)
    | .submitAnswerRequest =>
        locked (TriviaServer.GameRequestHandler.submitAnswer P game user request)
    | .getGameResultsRequest =>
        locked (TriviaServer.GameRequestHandler.getGameResults game user)
    | .exit => leaveGameAndExit game user
    | _ => return notRelevant.toRequestResult (.game game user)

end GameRequestHandler

def handleRequest (P : Platform) (handler : Handler) (request : RequestInfo) :
    LockingAction RequestResult :=
  match handler with
  | .roomMember roomUuid roomName user =>
      RoomMemberRequestHandler.handleRequest roomUuid roomName user request
  | .roomAdmin room user => RoomAdminRequestHandler.handleRequest room user request
  | .game game user => GameRequestHandler.handleRequest P game user request
  | handler => locked (handler.handleRequest P request)

/-- The loop of `handleClient`, with the mutexes of the managers. -/
def handleClient (P : Platform) :
    Service (operations.locking Mutex) Session RequestInfo RequestResult Bool where
  initial := (TriviaServer.handleClient P).initial
  admits := (TriviaServer.handleClient P).admits
  serve session request := handleRequest P session.handler request
  next := (TriviaServer.handleClient P).next

end Locking

/-- The server in the middle of a run with locks. -/
abbrev LockingConfig : Type :=
  Config (operations.locking Mutex) Managers ℕ Session RequestInfo RequestResult

/-- Runs of the server in which the connections' operations and the steps of their locks
interleave, from its start on some database. -/
def LockingRun (P : Platform) (dbSucceeds : Bool) (policy : LockPolicy) (cfg : LockingConfig) :
    Prop :=
  ∃ database, Service.Reachable (Locking.handleClient P) ((machine dbSucceeds).locking Mutex)
    (LocksFree policy) (Service.start (.init database)) cfg

end TriviaServer
