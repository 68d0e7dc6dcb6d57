import TriviaServer.Verification.Accounts
import TriviaServer.Verification.Moves

/-! # Using the rooms

The rules for the operations on rooms, for the players behind a list of users, and for the
code of the menu that looks at all the rooms. -/

namespace TriviaServer

open Interaction
open Program (Only)

variable {E : Fault → Prop} {s : Managers}

/-! ## Rooms -/

theorem getElem?_insert_room (rooms : Std.TreeMap String Room) (uuid uuid' : String)
    (room : Room) :
    (rooms.insert uuid room)[uuid']? = if uuid' = uuid then some room else rooms[uuid']? := by
  rw [Std.TreeMap.getElem?_insert]
  by_cases h : uuid' = uuid
  · simp [h]
  · simp [h, Ne.symm h]

theorem getElem?_erase_room (rooms : Std.TreeMap String Room) (uuid uuid' : String) :
    (rooms.erase uuid)[uuid']? = if uuid' = uuid then none else rooms[uuid']? := by
  rw [Std.TreeMap.getElem?_erase]
  by_cases h : uuid' = uuid
  · simp [h]
  · simp [h, Ne.symm h]

/-- A new key is inserted either way. -/
theorem getElem?_insertIfNew_room {rooms : Std.TreeMap String Room} {uuid : String}
    (hnew : rooms[uuid]? = none) (uuid' : String) (room : Room) :
    (rooms.insertIfNew uuid room)[uuid']? =
      if uuid' = uuid then some room else rooms[uuid']? := by
  have hnot : uuid ∉ rooms := by
    rw [Std.TreeMap.mem_iff_isSome_getElem?, hnew]
    exact Bool.false_ne_true
  rw [Std.TreeMap.getElem?_insertIfNew]
  by_cases h : uuid' = uuid
  · simp [h, hnot]
  · simp [h, Ne.symm h]

theorem Room.addUser_ok {r r' : Room} {user : LoggedUser} (h : r.addUser user = .ok r') :
    r.users.length < r.metadata.maxPlayers.toNat ∧ user ∉ r.users ∧
      r' = { r with users := r.users ++ [user] } := by
  unfold Room.addUser at h
  split_ifs at h with hfull hmem
  cases h
  exact ⟨not_le.mp hfull, hmem, rfl⟩

section Using

variable {uuid : String} {Q : List (Event operations) → Unit → Managers → Prop}

theorem wp_getAllUsers {Q : List (Event operations) → List LoggedUser → Managers → Prop}
    (hE : s.rooms[uuid]? = none → E .erasedRoom)
    (h : ∀ room, s.rooms[uuid]? = some room →
      Q [event (.room (.getAllUsers uuid)) room.users] room.users s) :
    wp (machine true) E (Action.room (.getAllUsers uuid)) Q s := by
  refine (wp_room (.getAllUsers uuid) nofun Q).mpr ?_
  cases hroom : s.rooms[uuid]? with
  | none =>
      simp only [RoomOp.exec, RoomOp.readRoom, hroom, ensures_error]
      exact hE hroom
  | some room =>
      simp only [RoomOp.exec, RoomOp.readRoom, hroom, ensures_ok]
      exact h room hroom

theorem wp_getMetadata {Q : List (Event operations) → RoomData → Managers → Prop}
    (hE : s.rooms[uuid]? = none → E .erasedRoom)
    (h : ∀ room, s.rooms[uuid]? = some room →
      Q [event (.room (.getMetadata uuid)) room.metadata] room.metadata s) :
    wp (machine true) E (Action.room (.getMetadata uuid)) Q s := by
  refine (wp_room (.getMetadata uuid) nofun Q).mpr ?_
  cases hroom : s.rooms[uuid]? with
  | none =>
      simp only [RoomOp.exec, RoomOp.readRoom, hroom, ensures_error]
      exact hE hroom
  | some room =>
      simp only [RoomOp.exec, RoomOp.readRoom, hroom, ensures_ok]
      exact h room hroom

theorem wp_setIsActive {isActive : Bool} (hE : s.rooms[uuid]? = none → E .erasedRoom)
    (h : ∀ room, s.rooms[uuid]? = some room →
      Q [event (.room (.setIsActive uuid isActive)) ()] ()
        { s with rooms := s.rooms.insert uuid (room.setIsActive isActive) }) :
    wp (machine true) E (Action.room (.setIsActive uuid isActive)) Q s := by
  refine (wp_room (.setIsActive uuid isActive) nofun Q).mpr ?_
  cases hroom : s.rooms[uuid]? with
  | none =>
      simp only [RoomOp.exec, RoomOp.writeRoom, hroom, ensures_error]
      exact hE hroom
  | some room =>
      simp only [RoomOp.exec, RoomOp.writeRoom, hroom, ensures_ok]
      exact h room hroom

theorem wp_removeUser {user : LoggedUser} (hE : s.rooms[uuid]? = none → E .erasedRoom)
    (h : ∀ room, s.rooms[uuid]? = some room →
      Q [event (.room (.removeUser uuid user)) ()] ()
        { s with rooms := s.rooms.insert uuid (room.removeUser user) }) :
    wp (machine true) E (Action.room (.removeUser uuid user)) Q s := by
  refine (wp_room (.removeUser uuid user) nofun Q).mpr ?_
  cases hroom : s.rooms[uuid]? with
  | none =>
      simp only [RoomOp.exec, RoomOp.writeRoom, hroom, ensures_error]
      exact hE hroom
  | some room =>
      simp only [RoomOp.exec, RoomOp.writeRoom, hroom, ensures_ok]
      exact h room hroom

/-- The room goes with its last player, if nobody joins meanwhile. -/
theorem wp_removePlayerFromRoom {d : Bool} {user : LoggedUser}
    (hE : s.rooms[uuid]? = none → E .roomNotFound)
    (h : ∀ t room s', Silent t → readingsOf t = [] → s.rooms[uuid]? = some room →
      s' = { s with rooms := s'.rooms } →
      RoomChanges s s' uuid (if (room.removeUser user).users.isEmpty then none
        else some (room.removeUser user)) → Q t () s') :
    wp (machine d) E (RoomManager.removePlayerFromRoom uuid user) Q s := by
  unfold RoomManager.removePlayerFromRoom
  simp only [wp_bind]
  refine (wp_room (.removeUserAt uuid user) (by simp) _).mpr ?_
  cases hroom : s.rooms[uuid]? with
  | none =>
      simp only [RoomOp.exec, hroom, ensures_error]
      exact hE hroom
  | some room =>
      simp only [RoomOp.exec, hroom, ensures_ok]
      refine (wp_room (.getAllUsersAt uuid) (by simp) _).mpr ?_
      simp only [RoomOp.exec, getElem?_insert_room, if_true, ensures_ok]
      cases hempty : (room.removeUser user).users.isEmpty with
      | true =>
          refine (wp_room (.eraseRoom uuid) (by simp) _).mpr ?_
          simp only [RoomOp.exec, ensures_ok]
          refine h _ room _ (by simp [Op.Silent]) (by simp) hroom rfl fun uuid' => ?_
          simp only [hempty, if_true, getElem?_erase_room, getElem?_insert_room]
          split_ifs <;> rfl
      | false =>
          simp only [Bool.false_eq_true, if_false, wp_pure]
          refine h _ room _ (by simp [Op.Silent]) (by simp) hroom rfl fun uuid' => ?_
          simpa only [hempty, Bool.false_eq_true, if_false] using
            getElem?_insert_room s.rooms uuid uuid' _

theorem wp_room_addUser {user : LoggedUser}
    {Q : List (Event operations) → Option Error → Managers → Prop}
    (hE : s.rooms[uuid]? = none → E .erasedRoom)
    (hfull : ∀ e, Q [event (.room (.addUser uuid user)) (some e)] (some e) s)
    (h : ∀ room room', s.rooms[uuid]? = some room → room.addUser user = .ok room' →
      Q [event (.room (.addUser uuid user)) none] none
        { s with rooms := s.rooms.insert uuid room' }) :
    wp (machine true) E (Action.room (.addUser uuid user)) Q s := by
  refine (wp_room (.addUser uuid user) nofun Q).mpr ?_
  cases hroom : s.rooms[uuid]? with
  | none =>
      simp only [RoomOp.exec, hroom, ensures_error]
      exact hE hroom
  | some room =>
      cases hadd : room.addUser user with
      | error e =>
          simp only [RoomOp.exec, hroom, hadd, ensures_ok]
          exact hfull e
      | ok room' =>
          simp only [RoomOp.exec, hroom, hadd, ensures_ok]
          exact h room room' hroom hadd

theorem wp_getRoomState {Q : List (Event operations) → Option RoomState → Managers → Prop}
    (h : ∀ state, state = s.rooms[uuid]?.map (fun room => ⟨room.metadata, room.users⟩) →
      Q [event (.room (.getRoomState uuid)) state] state s) :
    wp (machine true) E (RoomManager.getRoomState uuid) Q s := by
  exact (wp_room (.getRoomState uuid) nofun Q).mpr (h _ rfl)

theorem wp_getRoom {Q : List (Event operations) → Result String → Managers → Prop}
    (hnone : ∀ t e, Silent t → Q t (.error e) s)
    (h : ∀ t room, Silent t → s.rooms[uuid]? = some room → Q t (.ok uuid) s) :
    wp (machine true) E (RoomManager.getRoom uuid) Q s := by
  unfold RoomManager.getRoom
  rw [wp_bind]
  refine (wp_room (.findRoom uuid) nofun _).mpr ?_
  unfold RoomOp.exec
  rw [ensures_ok, Std.TreeMap.contains_eq_isSome_getElem?]
  cases hroom : s.rooms[uuid]? with
  | none => exact hnone _ _ (by simp [Silent, Op.Silent])
  | some room => exact h _ room (by simp [Silent, Op.Silent]) hroom

theorem wp_deleteRoom (h : Q [event (.room (.deleteRoom uuid)) ()] ()
      { s with rooms := s.rooms.erase uuid }) :
    wp (machine true) E (RoomManager.deleteRoom uuid) Q s := by
  exact (wp_room (.deleteRoom uuid) nofun Q).mpr h

theorem wp_createRoom {d : Bool} {admin : LoggedUser} {roomData : RoomData}
    {Q : List (Event operations) → String → Managers → Prop}
    (h : ∀ uuid room s', s.rooms[uuid]? = none → room = ⟨{ roomData with uuid }, [admin]⟩ →
      RoomChanges s s' uuid (some room) → s'.games = s.games →
      Q [event (.room .generateRoomUUID) uuid, event (.room (.emplaceRoom uuid room)) ()]
        uuid s') :
    wp (machine d) E (RoomManager.createRoom admin roomData) Q s := by
  unfold RoomManager.createRoom
  rw [wp_bind, wp_generateRoomUUID]
  intro uuid huuid
  rw [wp_bind]
  refine (wp_room (.emplaceRoom uuid _) nofun _).mpr ?_
  exact h uuid _ _ huuid rfl (fun uuid' => getElem?_insertIfNew_room huuid uuid' _) rfl

end Using

/-! ## The players behind the users -/

/-- The player found for a name has that name. -/
theorem wp_getPlayerByName {username : String}
    {Q : List (Event operations) → Result Player → Managers → Prop}
    (h : ∀ t r, Silent t → (∀ player, r = .ok player → player.username = username) → Q t r s) :
    wp (machine true) E (SqliteDatabase.getPlayerByName username) Q s := by
  unfold SqliteDatabase.getPlayerByName SqliteDatabase.getUser
  simp only [wp_bind]
  refine wp_db fun c r db hc hx => ?_
  rw [DbOp.exec_succeeds rfl hc] at hx
  cases hx
  rw [Managers.setDatabase_self]
  split
  · next hr => cases hr
  · exact h _ _ (by simp [Op.Silent]) fun _ heq => by cases heq
  · next user rest hr =>
      have hmem : user ∈ s.database.users.filter (·.username = username) :=
        List.mem_of_mem_take (Option.some.inj hr ▸ List.mem_cons_self)
      obtain ⟨huser, hname⟩ := List.mem_filter.mp hmem
      simp only [wp_pure, wp_bind]
      refine wp_db fun c r db hc hx => ?_
      rw [DbOp.exec_succeeds rfl hc] at hx
      cases hx
      rw [Managers.setDatabase_self]
      split
      · next hr => cases hr
      · exact h _ _ (by simp [Op.Silent]) fun _ heq => by cases heq
      · next player rest hr =>
          refine h _ _ (by simp [Op.Silent]) fun player' hplayer => ?_
          cases hplayer
          have hfound := List.mem_of_mem_take (Option.some.inj hr ▸ List.mem_cons_self)
          obtain ⟨row, hrow, rfl⟩ := List.mem_map.mp hfound
          obtain ⟨hjoined, hid⟩ := List.mem_filter.mp hrow
          obtain ⟨owner, howner, hpair⟩ := List.mem_flatMap.mp hjoined
          obtain ⟨st, -, rfl⟩ := List.mem_map.mp hpair
          rw [Database.user_eq_of_id howner huser (of_decide_eq_true hid)]
          exact of_decide_eq_true hname

theorem wp_transformLoggedUsersToPlayers {users : List LoggedUser}
    {Q : List (Event operations) → Result (List Player) → Managers → Prop}
    (h : ∀ t r, Silent t → (∀ players, r = .ok players →
      ∀ player ∈ players, (⟨player.username⟩ : LoggedUser) ∈ users) → Q t r s) :
    wp (machine true) E (UsersManager.transformLoggedUsersToPlayers users) Q s := by
  induction users generalizing Q with
  | nil => exact h [] (.ok []) (by simp) (by rintro _ ⟨⟩; simp)
  | cons user rest ih =>
      unfold UsersManager.transformLoggedUsersToPlayers UsersManager.getPlayerByName
      simp only [wp_bind]
      refine wp_getPlayerByName fun t player ht hname => ?_
      cases player with
      | error e => exact h _ _ (by simpa using ht) nofun
      | ok player =>
          simp only [wp_bind]
          refine ih fun t' players ht' hnames => ?_
          cases players with
          | error e => exact h _ _ (by simp [ht, ht']) nofun
          | ok players =>
              refine h _ _ (by simp [ht, ht']) fun all hall p hp => ?_
              cases hall
              rcases List.mem_cons.mp hp with rfl | hp
              · exact hname _ rfl ▸ List.mem_cons_self
              · exact List.mem_cons_of_mem _ (hnames players rfl p hp)

/-! ## Looking at all the rooms -/

theorem game?_eq_none {g : String} (h : s.game? g = none) : s.games.any (·.uuid = g) = false := by
  rw [Managers.game?, List.find?_eq_none] at h
  rw [List.any_eq_false]
  simpa using h

/-- A game that is not there is not found by its id. -/
theorem wp_getGameById_none {g : String}
    {Q : List (Event operations) → String → Managers → Prop} (hg : s.game? g = none)
    (hE : E .gameNotFound) : wp (machine true) E (GameManager.getGameById g) Q s := by
  unfold GameManager.getGameById
  rw [wp_bind, wp_game]
  intro c
  simpa only [GameOp.exec, game?_eq_none hg, Bool.false_eq_true, if_false, ensures_error] using hE

namespace MenuRequestHandler

theorem wp_isRoomFinished {room : RoomData}
    {Q : List (Event operations) → Bool → Managers → Prop}
    (hE : room.isActive = true → s.game? room.uuid = none → E .gameNotFound)
    (h : ∀ t finished k, Silent t → Q t finished (s.setClock k)) :
    wp (machine true) E (isRoomFinished room) Q s := by
  unfold isRoomFinished
  split_ifs with hactive
  · rw [wp_bind]
    cases hg : s.game? room.uuid with
    | none => exact wp_getGameById_none hg (hE hactive hg)
    | some gm =>
        refine wp_getGameById hg (wp_isFinished hg fun k hk => ?_)
        exact h _ _ k (by simp [Op.Silent])
  · exact h [] false s.clock (by simp)

theorem wp_roomsResponse {rooms : List RoomData}
    {Q : List (Event operations) → List RoomDataResponse → Managers → Prop}
    (hE : ∀ room ∈ rooms, room.isActive = true → s.game? room.uuid = none → E .gameNotFound)
    (h : ∀ t response k, Silent t → Q t response (s.setClock k)) :
    wp (machine true) E (roomsResponse rooms) Q s := by
  induction rooms generalizing s Q with
  | nil => exact h [] [] s.clock (by simp)
  | cons room rest ih =>
      have hrest : ∀ room ∈ rest, room.isActive = true → s.game? room.uuid = none →
          E .gameNotFound := fun room hroom => hE room (List.mem_cons_of_mem _ hroom)
      unfold roomsResponse
      simp only [wp_bind]
      refine wp_getRoom (fun t e ht => ?_) fun t r ht hr => ?_
      · exact ih hrest fun t' response k ht' => h _ _ k (by simp [ht, ht'])
      · simp only [wp_bind]
        refine wp_getAllUsers (fun hnone => nomatch hnone.symm.trans hr) fun _ _ => ?_
        refine wp_transformLoggedUsersToPlayers fun t' players ht' _ => ?_
        cases players with
        | error e =>
            exact ih hrest fun t'' response k ht'' => h _ _ k (by simp [ht, ht', ht'', Op.Silent])
        | ok players =>
            simp only [wp_bind]
            refine wp_isRoomFinished (hE room List.mem_cons_self) fun t₁ finished k₁ ht₁ => ?_
            refine ih (s := s.setClock k₁) hrest fun t₂ response k₂ ht₂ => ?_
            exact h _ _ k₂ (by simp [ht, ht', ht₁, ht₂, Op.Silent])

end MenuRequestHandler

end TriviaServer
