import TriviaServer.Interaction.Replay
import TriviaServer.Model.Server

/-! # Replaying runs of the server

A run of the server on a platform is determined by what the clients send and what the
environment decides. The sample platform knows the few bodies that the runs below send. -/

namespace TriviaServer

open Interaction Service

/-- The runs of two calls number them `0` and `1`. -/
instance instNeZeroTwo : NeZero 2 := ⟨nofun⟩

abbrev ServerPlay : Type := Play ℕ RequestInfo Bool Choice

/-- The state after an interleaved run from the start on a database, if all its steps are
enabled and pass the check. -/
def replayServer (P : Platform) (dbSucceeds : Bool) (database : Database)
    (plays : List ServerPlay)
    (check : ServerConfig → Label ℕ RequestInfo Bool → Bool := fun _ _ => true) :
    Option ServerConfig :=
  replayIf (handleClient P) interpreter (Op.admits dbSucceeds) (fun play _ => play.label) check
    plays (ServerConfig.init database)

/-- The state after a run of atomic requests in which no database call throws. -/
def replayAtomic (P : Platform) (database : Database) (plays : List ServerPlay)
    (check : ServerConfig → AtomicServerLabel → Bool := fun _ _ => true) : Option ServerConfig :=
  replayIf (handleClient P) interpreter (Op.admits true)
    (Play.atomicLabel (handleClient P) interpreter (Op.admits true)) check plays
    (ServerConfig.init database)

variable {P : Platform} {database : Database} {plays : List ServerPlay} {cfg : ServerConfig}

theorem reachable_of_replay {d : Bool} {check : ServerConfig → Label ℕ RequestInfo Bool → Bool}
    {K : ServerConfig → Label ℕ RequestInfo Bool → Prop}
    (h : replayServer P d database plays check = some cfg)
    (hK : ∀ cfg l, check cfg l = true → K cfg l) :
    Reachable (handleClient P) (machine d) K (ServerConfig.init database) cfg :=
  reachable_of_replayIf hK h

theorem interleavedRun_of_replay {d : Bool} (h : replayServer P d database plays = some cfg) :
    InterleavedRun P d cfg :=
  ⟨database, reachable_of_replay h fun _ _ _ => trivial⟩

theorem atomicRun_of_replay {check : ServerConfig → AtomicServerLabel → Bool}
    {K : ServerConfig → AtomicServerLabel → Prop}
    (h : replayAtomic P database plays check = some cfg)
    (hK : ∀ cfg l, check cfg l = true → K cfg l) : AtomicRun P K cfg :=
  ⟨database, atomicReachable_of_replayIf hK h⟩

/-- The bytes of an ASCII text. -/
def ascii (text : String) : List UInt8 := text.toList.map fun ch => UInt8.ofNat ch.toNat

/-- JSON texts and what they parse to. -/
def sampleBodies : List (String × Json) :=
  [ ("\x7b\"username\":\"ann\",\"password\":\"Aa1!aaaa\"\x7d",
      .object [("username", .string "ann"), ("password", .string "Aa1!aaaa")])
  , ("\x7b\"username\":\"bob\",\"password\":\"Aa1!aaaa\"\x7d",
      .object [("username", .string "bob"), ("password", .string "Aa1!aaaa")])
  , ("\x7b\"username\":\"eve\",\"password\":\"Aa1!aaaa\",\"email\":\"eve@mail.com\",\"address\":\"Street, 1, City\",\"phoneNumber\":\"0501234567\",\"birthday\":\"1.1.2000\"\x7d",
      .object [("username", .string "eve"), ("password", .string "Aa1!aaaa"),
        ("email", .string "eve@mail.com"), ("address", .string "Street, 1, City"),
        ("phoneNumber", .string "0501234567"), ("birthday", .string "1.1.2000")])
  , ("\x7b\"username\":\"eve\",\"password\":\"Aa1!aaaa\"\x7d",
      .object [("username", .string "eve"), ("password", .string "Aa1!aaaa")]) ]

/-- Every text that the sample bodies are checked with matches, and no other body is sent. -/
def samplePlatform : Platform where
  parse buffer := (sampleBodies.find? fun body => ascii body.1 = buffer).map Prod.snd
  regexMatch _ _ := true
  isValidBirthday _ := (true, "")

/-- An empty body submits a code. -/
def guessPlatform : Platform :=
  { samplePlatform with
    parse := fun buffer =>
      if buffer = [] then some (.object [("code", .string "000000")])
      else samplePlatform.parse buffer }

/-- The request with the given one of the sample bodies. -/
def sampleRequest (requestId : RequestId) (body : ℕ) : RequestInfo :=
  ⟨requestId, (sampleBodies[body]?.map fun body => ascii body.1).getD []⟩

/-- The bodies that runs with rooms and games send as well. -/
def lobbyBodies : List (String × Json) :=
  sampleBodies ++
    [ ("\x7b\"name\":\"quiz\",\"maxPlayers\":4,\"questionCount\":2,\"timePerQuestion\":5\x7d",
        .object [("name", .string "quiz"), ("maxPlayers", .numberUnsigned 4),
          ("questionCount", .numberUnsigned 2), ("timePerQuestion", .numberUnsigned 5)])
    , ("\x7b\"roomId\":\"room\"\x7d", .object [("roomId", .string "room")])
    , ("\x7b\"answerId\":0,\"questionId\":0\x7d",
        .object [("answerId", .numberUnsigned 0), ("questionId", .numberUnsigned 0)]) ]

def lobbyPlatform : Platform :=
  { samplePlatform with
    parse := fun buffer =>
      (lobbyBodies.find? fun body => ascii body.1 = buffer).map Prod.snd }

def lobbyRequest (requestId : RequestId) (body : ℕ) : RequestInfo :=
  ⟨requestId, (lobbyBodies[body]?.map fun body => ascii body.1).getD []⟩

/-- The outcome of a call that goes well at once. -/
def usual : Choice := {}

def failing : Choice := { fails := true }

/-- A connection makes its next calls, with these outcomes. -/
def calls (c : ℕ) (outcomes : List Choice) : List ServerPlay := outcomes.map (.perform c)

/-- A whole request of a connection whose calls go well at once, and the send as well. -/
def wholeRequest (c : ℕ) (request : RequestInfo) : ServerPlay :=
  .request c request true (List.replicate 16 usual)

/-- `ann` and `bob` log in; `ann` creates a room and `bob` joins it. -/
def pairInRoom : List ServerPlay :=
  [ .connect 0, wholeRequest 0 (lobbyRequest .loginRequest 0)
  , .connect 1, wholeRequest 1 (lobbyRequest .loginRequest 1)
  , .request 0 (lobbyRequest .createRoomRequest 4) true [{ text := "room" }, usual]
  , wholeRequest 1 (lobbyRequest .joinRoomRequest 5) ]

/-- And `ann` starts the game, which `bob` has not noticed yet. -/
def pairInGame : List ServerPlay :=
  pairInRoom ++ [wholeRequest 0 ⟨.startGameRequest, []⟩]

def Database.empty : Database where
  users := []
  statistics := []
  questions := []
  nextUserId := 1
  usernames_nodup := by decide
  ids_sorted := by decide
  ids_lt := by decide
  rows_eq := rfl

/-- The accounts of `ann` and `bob`, and two questions. -/
def sampleDatabase : Database where
  users :=
    [ ⟨1, "ann", "Aa1!aaaa", "ann@mail.com", "", "", "", 0, 0⟩
    , ⟨2, "bob", "Aa1!aaaa", "bob@mail.com", "", "", "", 0, 0⟩ ]
  statistics := [⟨1, 0, 0, 0, 0, 0⟩, ⟨2, 0, 0, 0, 0, 0⟩]
  questions := [⟨1, "q0", "a", "b", "c", "d"⟩, ⟨2, "q1", "a", "b", "c", "d"⟩]
  nextUserId := 3
  usernames_nodup := by decide
  ids_sorted := by decide
  ids_lt := by decide
  rows_eq := rfl

end TriviaServer
