import TriviaServer.Verification.Deserializers
import TriviaServer.Verification.Replays
import TriviaServer.Verification.Rooms

/-! # The numbers of a new room

JSON carries unsigned integers of 64 bits, a room has 32. The deserializer narrows a number
after the test of its kind and before the test of its bounds. -/

namespace TriviaServer

open Interaction

/-- The integer that an unsigned number is. -/
def Json.unsigned : Json → Option ℕ
  | .numberUnsigned n => some n.toNat
  | _ => none

/-- The room that `createRoom` asks for; the uuid is generated in the manager. -/
def CreateRoomRequest.roomData (r : CreateRoomRequest) : RoomData where
  uuid := ""
  name := r.roomName
  maxPlayers := r.maxPlayers
  questionCount := r.questionCount
  timePerQuestion := r.timePerQuestion
  isActive := false

/-- A room has the integers that a body sent, and they are within the bounds. -/
structure AsSent (j : Json) (room : RoomData) : Prop where
  maxPlayers : (j.get "maxPlayers").unsigned = some room.maxPlayers.toNat
  questionCount : (j.get "questionCount").unsigned = some room.questionCount.toNat
  timePerQuestion : (j.get "timePerQuestion").unsigned = some room.timePerQuestion.toNat
  bounds : 1 < room.maxPlayers.toNat ∧ 2 ≤ room.questionCount.toNat ∧
    5 ≤ room.timePerQuestion.toNat

/-- One room is added, with the numbers that the body sent. -/
def AddsAsSent (j : Json) (s s' : Managers) : Prop :=
  ∃ uuid room, s.rooms[uuid]? = none ∧ RoomChanges s s' uuid (some room) ∧ AsSent j room.metadata

/-- The numbers of a body fit in 32 bits. -/
def NumbersFit (j : Json) : Prop :=
  ∀ key ∈ ["maxPlayers", "questionCount", "timePerQuestion"], ∀ n,
    (j.get key).unsigned = some n → n < 2 ^ 32

/-- A narrowed number is the number sent if that has 32 bits. -/
theorem narrowed_iff (n : UInt64) : n.toNat = n.toUInt32.toNat ↔ n.toNat < 2 ^ 32 := by
  rw [UInt64.toNat_toUInt32]
  omega

theorem isValidRoomDetails_bounds {room : RoomData}
    (h : MenuRequestHandler.isValidRoomDetails room = true) :
    1 < room.maxPlayers.toNat ∧ 2 ≤ room.questionCount.toNat ∧ 5 ≤ room.timePerQuestion.toNat := by
  simp only [MenuRequestHandler.isValidRoomDetails, Bool.and_eq_true, decide_eq_true_iff] at h
  exact ⟨UInt32.lt_iff_toNat_lt.mp h.1.1.2, UInt32.le_iff_toNat_le.mp h.1.2,
    UInt32.le_iff_toNat_le.mp h.2⟩

section Creation

variable {P : Platform} {user : LoggedUser} {request : RequestInfo} {j : Json}
  {r : CreateRoomRequest}

/-- The room that is added has the narrowed numbers. -/
theorem wp_createRoomRequest {d : Bool} {E : Fault → Prop} {s : Managers}
    (hj : P.parse request.buffer = some j)
    (hr : JsonDeserializer.deserializeCreateRoomRequest (some j) = .ok (.ok r))
    (hvalid : MenuRequestHandler.isValidRoomDetails r.roomData = true) :
    wp (machine d) E (MenuRequestHandler.createRoom P user request)
      (fun _ _ s' => ∃ uuid, s.rooms[uuid]? = none ∧
        RoomChanges s s' uuid (some ⟨{ r.roomData with uuid }, [user]⟩)) s := by
  unfold MenuRequestHandler.createRoom
  rw [hj, hr, wp_bind]
  simp only [Action.lift, wp_pure]
  have hvalid' : MenuRequestHandler.isValidRoomDetails _ = true := hvalid
  simp only [CreateRoomRequest.roomData] at hvalid'
  simp only [hvalid', Bool.not_true, Bool.false_eq_true, if_false, wp_bind]
  apply wp_createRoom
  intro uuid room s' hnew hroom hrooms _
  exact ⟨uuid, hnew, hroom ▸ hrooms⟩

/-- The room of a request has the numbers sent exactly if they fit in 32 bits. -/
theorem asSent_iff (hr : JsonDeserializer.deserializeCreateRoomRequest (some j) = .ok (.ok r))
    (hvalid : MenuRequestHandler.isValidRoomDetails r.roomData = true) (uuid : String) :
    AsSent j { r.roomData with uuid } ↔ NumbersFit j := by
  obtain ⟨m, q, t, hm, hq, ht, hrm, hrq, hrt⟩ :=
    Deserializer.deserializeCreateRoomRequest_ok hr
  have hnumbers : NumbersFit j ↔ m.toNat < 2 ^ 32 ∧ q.toNat < 2 ^ 32 ∧ t.toNat < 2 ^ 32 := by
    simp [NumbersFit, hm, hq, ht, Json.unsigned]
  rw [hnumbers, ← narrowed_iff, ← narrowed_iff, ← narrowed_iff, ← hrm, ← hrq, ← hrt]
  constructor
  · rintro ⟨hmax, hcount, htime, -⟩
    rw [hm] at hmax
    rw [hq] at hcount
    rw [ht] at htime
    exact ⟨Option.some.inj hmax, Option.some.inj hcount, Option.some.inj htime⟩
  · rintro ⟨hmax, hcount, htime⟩
    refine ⟨?_, ?_, ?_, isValidRoomDetails_bounds hvalid⟩
    · rw [hm]
      exact congrArg some hmax
    · rw [hq]
      exact congrArg some hcount
    · rw [ht]
      exact congrArg some htime

/-- An accepted body adds a room with the numbers it sent exactly if they fit in 32 bits. -/
theorem addsAsSent_iff {d : Bool} {s s' : Managers} {t : List (Event operations)}
    {a : RequestResult} (hj : P.parse request.buffer = some j)
    (hr : JsonDeserializer.deserializeCreateRoomRequest (some j) = .ok (.ok r))
    (hvalid : MenuRequestHandler.isValidRoomDetails r.roomData = true)
    (hx : Exec (machine d) (MenuRequestHandler.createRoom P user request) s t a s') :
    AddsAsSent j s s' ↔ NumbersFit j := by
  obtain ⟨uuid, hnew, hrooms⟩ := hx.of_wp (wp_createRoomRequest (E := fun _ => True) hj hr hvalid)
  rw [← asSent_iff hr hvalid uuid]
  constructor
  · -- the room that is added is the only new one
    rintro ⟨uuid', room, hnew', hrooms', hsent⟩
    have hthere := hrooms uuid
    rw [if_pos rfl, hrooms'] at hthere
    split_ifs at hthere
    · cases hthere
      exact hsent
    · exact nomatch hnew.symm.trans hthere
  · intro hsent
    exact ⟨uuid, _, hnew, hrooms, hsent⟩

end Creation

/-! ## Two bodies -/

/-- A room for this many players, with two questions of five seconds. -/
def roomBody (maxPlayers : UInt64) : Json :=
  .object [("name", .string "quiz"), ("maxPlayers", .numberUnsigned maxPlayers),
    ("questionCount", .numberUnsigned 2), ("timePerQuestion", .numberUnsigned 5)]

/-- A platform on which every buffer parses to such a body. -/
def roomPlatform (maxPlayers : UInt64) : Platform :=
  { samplePlatform with parse := fun _ => some (roomBody maxPlayers) }

theorem addsAsSent_four : ∃ t a s', Exec (machine true) (MenuRequestHandler.createRoom
      (roomPlatform 4) ⟨"ann"⟩ ⟨.createRoomRequest, []⟩) (.init .empty) t a s' ∧
    AddsAsSent (roomBody 4) (.init .empty) s' := by
  have hx := Interpreter.exec_of_run (show interpreter.run (Op.admits true)
    (MenuRequestHandler.createRoom (roomPlatform 4) ⟨"ann"⟩ ⟨.createRoomRequest, []⟩)
    [{ text := "room" }, usual] (.init .empty) = some _ from rfl)
  refine ⟨_, _, _, hx, (addsAsSent_iff rfl rfl (by decide) hx).mpr ?_⟩
  simp [NumbersFit, roomBody, Json.get, Json.unsigned, List.lookup_cons]

/-- A room for 2³² + 2 players is made for two. -/
theorem not_addsAsSent : ¬ ∀ (P : Platform) (user : LoggedUser) (request : RequestInfo) (j : Json)
    (r : CreateRoomRequest) (s s' : Managers) (t : List (Event operations)) (a : RequestResult),
    P.parse request.buffer = some j →
    JsonDeserializer.deserializeCreateRoomRequest (some j) = .ok (.ok r) →
    MenuRequestHandler.isValidRoomDetails r.roomData = true →
    Exec (machine true) (MenuRequestHandler.createRoom P user request) s t a s' →
    AddsAsSent j s s' := by
  intro h
  have hx := Interpreter.exec_of_run (show interpreter.run (Op.admits true)
    (MenuRequestHandler.createRoom (roomPlatform 4294967298) ⟨"ann"⟩ ⟨.createRoomRequest, []⟩)
    [{ text := "room" }, usual] (.init .empty) = some _ from rfl)
  obtain ⟨uuid, room, -, hrooms, hsent⟩ := h _ _ _ _ _ _ _ _ _ rfl rfl (by decide) hx
  have hmax := hsent.maxPlayers
  have hlt := room.metadata.maxPlayers.toNat_lt
  rw [roomBody, Json.get] at hmax
  simp [List.lookup_cons, Json.unsigned] at hmax
  omega

end TriviaServer
