import TriviaServer.Interaction.Program
import TriviaServer.Model.Database

/-! # The managers' state and the operations on it

An operation is one locked section of a manager, one call of the database or one call to the
world outside. A `Room&` or `Game&` is represented by the uuid of its object, so using it
after the object is gone is a fault. -/

namespace TriviaServer

open Interaction

structure Managers where
  loggedUsers : List LoggedUser := []
  rooms : Std.TreeMap String Room := ∅
  games : List Game := []
  database : Database
  clock : ℕ := 0

/-- The two locked sections of `LoginManager`. -/
inductive LoginOp where
  | tryLogin (username : String)
  | logout (username : String)
  deriving DecidableEq

inductive RoomOp where
  | generateRoomUUID
  | emplaceRoom (roomUUID : String) (room : Room)
  | deleteRoom (roomUUID : String)
  | getRooms
  | findRoom (roomUUID : String)
  | getRoomState (roomUUID : String)
  | removeUserAt (roomUUID : String) (user : LoggedUser)
  | getAllUsersAt (roomUUID : String)
  | eraseRoom (roomUUID : String)
  | addUser (room : String) (user : LoggedUser)
  | removeUser (room : String) (user : LoggedUser)
  | getAllUsers (room : String)
  | getMetadata (room : String)
  | setIsActive (room : String) (isActive : Bool)
  deriving DecidableEq

inductive GameOp where
  | pushGame (questions : List Question) (players : List LoggedUser) (uuid : String)
      (timePerQuestion : UInt32)
  | getGameById (id : String)
  | isFinished (game : String)
  | punishPlayer (game : String) (user : LoggedUser)
  | removePlayer (game : String) (user : LoggedUser)
  | markUserResultsAsSubmittedToDB (game : String) (user : LoggedUser)
  | getPlayersResults (game : String)
  | getOnlinePlayers (game : String)
  | eraseGame (game : String)
  | getCurrentQuestion (game : String)
  | checkAnswer (game : String) (answerIndex questionIndex : UInt32)
  | sleepUntilReleased (game : String) (currQuestionReleaseTime : UInt32)
  | recordAnswer (game : String) (user : LoggedUser)
      (answerIndex questionIndex answerTime : UInt32)
  /-- Marks a call of `submitGameStatistics` with a player's data; it changes nothing. -/
  | submitting (game : String) (user : LoggedUser) (data : GameData)
  deriving DecidableEq

/-- Randomness, the wall clock, mail and the question service; `throw` is an exception. -/
inductive ExternalOp where
  | getRandomAvatarColor
  | time
  | generateRandom6DigitCode
  | sendEmailVerification (recipientEmail verificationCode username : String)
  | sendEmailPasswordRecovery (recipientEmail password : String)
  | fetchQuestions (amount : UInt32)
  | shuffle (answers : List String)
  | throw (fault : Fault)
  deriving DecidableEq

inductive Op where
  | login (o : LoginOp)
  | database (o : DbOp)
  | room (o : RoomOp)
  | game (o : GameOp)
  | external (o : ExternalOp)

namespace LoginOp

abbrev Answer : LoginOp → Type
  | tryLogin _ => Bool
  | logout _ => Unit

def exec : (o : LoginOp) → Managers → o.Answer × Managers
  | tryLogin username, s =>
      if s.loggedUsers.any (·.username = username) then
        (false, s)
      else
        (true, { s with loggedUsers := s.loggedUsers ++ [⟨username⟩] })
  | logout username, s =>
      ((), { s with loggedUsers := s.loggedUsers.filter (·.username ≠ username) })

end LoginOp

namespace Room

/-- `Room::addUser`: an error, or the room with the user in it. -/
def addUser (room : Room) (user : LoggedUser) : Result Room :=
  if room.metadata.maxPlayers.toNat ≤ room.users.length then
    .error (.ofType .roomIsFull)
  else if user ∈ room.users then
    .error ⟨"User already in the room", .alreadyExists⟩
  else
    .ok { room with users := room.users ++ [user] }

def removeUser (room : Room) (user : LoggedUser) : Room :=
  { room with users := room.users.filter (· ≠ user) }

def setIsActive (room : Room) (isActive : Bool) : Room :=
  { room with metadata := { room.metadata with isActive } }

end Room

namespace RoomOp

abbrev Answer : RoomOp → Type
  | generateRoomUUID => String
  | emplaceRoom .. => Unit
  | deleteRoom _ => Unit
  | getRooms => List RoomData
  | findRoom _ => Bool
  | getRoomState _ => Option RoomState
  | removeUserAt .. => Unit
  | getAllUsersAt _ => List LoggedUser
  | eraseRoom _ => Unit
  | addUser .. => Option Error
  | removeUser .. => Unit
  | getAllUsers _ => List LoggedUser
  | getMetadata _ => RoomData
  | setIsActive .. => Unit

/-- A reading use of a `Room&`. -/
def readRoom {α : Type} (s : Managers) (room : String) (f : Room → α) :
    Except Fault (α × Managers) :=
  match s.rooms[room]? with
  | none => .error .erasedRoom
  | some r => .ok (f r, s)

/-- A writing use of a `Room&`. -/
def writeRoom (s : Managers) (room : String) (f : Room → Room) : Except Fault (Unit × Managers) :=
  match s.rooms[room]? with
  | none => .error .erasedRoom
  | some r => .ok ((), { s with rooms := s.rooms.insert room (f r) })

def exec : (o : RoomOp) → Choice → Managers → Except Fault (o.Answer × Managers)
  | generateRoomUUID, c, s => .ok (c.text, s)
  | emplaceRoom roomUUID room, _, s =>
      .ok ((), { s with rooms := s.rooms.insertIfNew roomUUID room })
  | deleteRoom roomUUID, _, s => .ok ((), { s with rooms := s.rooms.erase roomUUID })
  | getRooms, _, s => .ok (s.rooms.toList.map (·.2.metadata), s)
  | findRoom roomUUID, _, s => .ok (s.rooms.contains roomUUID, s)
  | getRoomState roomUUID, _, s =>
      .ok (s.rooms[roomUUID]?.map fun room => ⟨room.metadata, room.users⟩, s)
  | removeUserAt roomUUID user, _, s =>
      match s.rooms[roomUUID]? with
      | none => .error .roomNotFound
      | some room => .ok ((), { s with rooms := s.rooms.insert roomUUID (room.removeUser user) })
  | getAllUsersAt roomUUID, _, s =>
      match s.rooms[roomUUID]? with
      | none => .error .roomNotFound
      | some room => .ok (room.users, s)
  | eraseRoom roomUUID, _, s => .ok ((), { s with rooms := s.rooms.erase roomUUID })
  | addUser room user, _, s =>
      match s.rooms[room]? with
      | none => .error .erasedRoom
      | some r =>
          match r.addUser user with
          | .error e => .ok (some e, s)
          | .ok r' => .ok (none, { s with rooms := s.rooms.insert room r' })
  | removeUser room user, _, s => writeRoom s room fun r => r.removeUser user
  | getAllUsers room, _, s => readRoom s room Room.users
  | getMetadata room, _, s => readRoom s room Room.metadata
  | setIsActive room isActive, _, s => writeRoom s room fun r => r.setIsActive isActive

end RoomOp

namespace GameOp

abbrev Answer : GameOp → Type
  | pushGame .. => Unit
  | getGameById _ => Unit
  | isFinished _ => Bool
  | punishPlayer .. => Unit
  | removePlayer .. => Unit
  | markUserResultsAsSubmittedToDB .. => Unit
  | getPlayersResults _ => Std.TreeMap LoggedUser GameData
  | getOnlinePlayers _ => List LoggedUser
  | eraseGame _ => Unit
  | getCurrentQuestion _ => UInt32 × Question
  | checkAnswer .. => Result (UInt32 × UInt32)
  | sleepUntilReleased .. => Unit
  | recordAnswer .. => UInt32
  | submitting .. => Unit

/-- A reading use of a `Game&`. -/
def readGame {α : Type} (s : Managers) (game : String) (f : Game → Except Fault α) :
    Except Fault (α × Managers) :=
  match s.games.find? (·.uuid = game) with
  | none => .error .erasedGame
  | some g => (f g).map (·, s)

/-- A writing use of a `Game&`. -/
def writeGame {α : Type} (s : Managers) (game : String) (f : Game → Except Fault (α × Game)) :
    Except Fault (α × Managers) :=
  match s.games.find? (·.uuid = game) with
  | none => .error .erasedGame
  | some g => (f g).map fun r =>
      (r.1, { s with games := s.games.map fun g' => if g'.uuid = game then r.2 else g' })

/-- Reading the steady clock: some time has passed since the last reading. -/
def tick (c : Choice) (s : Managers) : Managers := { s with clock := s.clock + c.delay }

def exec : (o : GameOp) → Choice → Managers → Except Fault (o.Answer × Managers)
  | pushGame questions players uuid timePerQuestion, c, s =>
      .ok ((), { tick c s with
        games := s.games ++
          [.new questions players uuid timePerQuestion (tick c s).clock] })
  | getGameById id, _, s =>
      if s.games.any (·.uuid = id) then .ok ((), s) else .error .gameNotFound
  | isFinished game, c, s =>
      readGame (tick c s) game fun g => .ok (g.isFinished (tick c s).clock)
  | punishPlayer game user, _, s =>
      writeGame s game fun g => (g.punishPlayer user).map ((), ·)
  | removePlayer game user, _, s => writeGame s game fun g => .ok ((), g.removePlayer user)
  | markUserResultsAsSubmittedToDB game user, _, s =>
      writeGame s game fun g => (g.markUserResultsAsSubmittedToDB user).map ((), ·)
  | getPlayersResults game, _, s => readGame s game fun g => .ok g.players
  | getOnlinePlayers game, _, s => readGame s game fun g => .ok g.onlinePlayers
  | eraseGame game, _, s =>
      if s.games.any (·.uuid = game) then
        .ok ((), { s with games := s.games.eraseP (·.uuid = game) })
      else
        .error .erasedGame
  | getCurrentQuestion game, c, s =>
      readGame (tick c s) game fun g => g.getCurrentQuestion (tick c s).clock
  | checkAnswer game answerIndex questionIndex, c, s =>
      readGame (tick c s) game fun g =>
        g.checkAnswer (tick c s).clock answerIndex questionIndex
  | sleepUntilReleased game currQuestionReleaseTime, c, s =>
      (readGame s game fun g => .ok (g.releasedAt currQuestionReleaseTime)).map fun r =>
        ((), { s with clock := max s.clock r.1 + c.delay })
  | recordAnswer game user answerIndex questionIndex answerTime, _, s =>
      writeGame s game fun g => g.recordAnswer user answerIndex questionIndex answerTime
  | submitting .., _, s => .ok ((), s)

end GameOp

namespace ExternalOp

abbrev Answer : ExternalOp → Type
  | getRandomAvatarColor => AvatarColor
  | time => ℤ
  | generateRandom6DigitCode => String
  | sendEmailVerification .. => Option Error
  | sendEmailPasswordRecovery .. => Option Error
  | fetchQuestions _ => Result (List QuestionDb)
  | shuffle _ => List String
  | throw _ => Empty

/-- Six digits with leading zeros. -/
def verificationCode (number : ℕ) : String :=
  String.ofList ((Nat.toDigits 10 (number % 1000000)).leftpad 6 '0')

def exec : (o : ExternalOp) → Choice → Except Fault o.Answer
  | getRandomAvatarColor, c => .ok c.color
  | time, c => .ok c.time
  | generateRandom6DigitCode, c => .ok (verificationCode c.number)
  | sendEmailVerification .., c => .ok (if c.fails then some c.error else none)
  | sendEmailPasswordRecovery .., c => .ok (if c.fails then some c.error else none)
  | fetchQuestions amount, c =>
      .ok (if c.fails || c.questions.length != amount.toNat then .error c.error
        else .ok c.questions)
  | shuffle answers, c => .ok (if c.texts.isPerm answers then c.texts else answers)
  | throw fault, _ => .error fault

end ExternalOp

namespace Op

abbrev Answer : Op → Type
  | login o => o.Answer
  | database o => o.Answer
  | room o => o.Answer
  | game o => o.Answer
  | external o => o.Answer

def exec : (o : Op) → Choice → Managers → Except Fault (o.Answer × Managers)
  | login o, _, s => .ok (o.exec s)
  | database o, c, s =>
      .ok ((o.exec c s.database).1, { s with database := (o.exec c s.database).2 })
  | room o, c, s => o.exec c s
  | game o, c, s => o.exec c s
  | external o, c, s => (o.exec c).map (·, s)

/-- What the environment may decide: `generateRoomUUID` loops until the uuid is unused.
With `dbSucceeds`, no database call throws. -/
def admits (dbSucceeds : Bool) : Op → Choice → Managers → Bool
  | room .generateRoomUUID, c, s => !s.rooms.contains c.text
  | database _, c, _ => !(dbSucceeds && c.fails)
  | _, _, _ => true

end Op

abbrev operations : Signature := ⟨Op, Op.Answer⟩

/-- Code of the server, as a program over its operations. -/
abbrev Action (α : Type) : Type := Program operations α

abbrev interpreter : Interpreter operations Managers Choice Fault := ⟨Op.exec⟩

abbrev machine (dbSucceeds : Bool) : Machine operations Managers Fault :=
  interpreter.machine (Op.admits dbSucceeds)

namespace Action

def login (o : LoginOp) : Action o.Answer := Program.call (S := operations) (.login o)
def db (o : DbOp) : Action o.Answer := Program.call (S := operations) (.database o)
def room (o : RoomOp) : Action o.Answer := Program.call (S := operations) (.room o)
def game (o : GameOp) : Action o.Answer := Program.call (S := operations) (.game o)
def external (o : ExternalOp) : Action o.Answer := Program.call (S := operations) (.external o)

/-- An exception that nothing catches. -/
def throw {α : Type} (fault : Fault) : Action α := do
  let impossible ← external (.throw fault)
  nomatch impossible

/-- A computation that may throw. -/
def lift {α : Type} : Except Fault α → Action α
  | .ok a => pure a
  | .error fault => throw fault

end Action

end TriviaServer
