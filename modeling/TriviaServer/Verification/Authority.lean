import TriviaServer.Verification.Confinement

/-! # Who changes what

The ways in which a room, the games and an account can change while the connections
interleave, each with the handler that it takes. -/

namespace TriviaServer

open Interaction

variable {P : Platform} {d : Bool} {s s' : Managers} {h : Handler}

/-- The one part of the managers' state that a call can change. -/
inductive Frame (s : Managers) : Op → Managers → Prop
  | login {o} (loggedUsers) : Frame s (.login o) { s with loggedUsers }
  | database {o} (database) : Frame s (.database o) (s.setDatabase database)
  | room {o} (rooms) : Frame s (.room o) { s with rooms }
  | game {o} (games) {clock} : s.clock ≤ clock → Frame s (.game o) { s with games, clock }
  | external {o} : Frame s (.external o) s

theorem Op.frame {o : Op} {r : o.Answer} (hs : (machine d).Step o s r s') : Frame s o s' := by
  cases o with
  | login o =>
      have hx := LoginOp.step_eq hs
      cases o with
      | tryLogin name =>
          simp only [LoginOp.exec] at hx
          split_ifs at hx <;> cases hx <;> exact .login _
      | logout name =>
          cases hx
          exact .login _
  | database o =>
      obtain ⟨_, _, -, -, rfl⟩ := DbOp.step_eq hs
      exact .database _
  | room o =>
      rw [RoomOp.frame hs]
      exact .room _
  | game o =>
      obtain ⟨heq, hclock⟩ := GameOp.frame hs
      rw [heq]
      exact .game _ hclock
  | external o =>
      rw [ExternalOp.step_eq hs]
      exact .external

theorem Op.clock_le {o : Op} {r : o.Answer} (hs : (machine d).Step o s r s') :
    s.clock ≤ s'.clock := by
  cases Op.frame hs with
  | game _ hclock => exact hclock
  | _ => exact le_rfl

/-! ## Rooms -/

/-- The changes of the room with a uuid, and the handlers that make them. A player erases the
room only under a condition. -/
inductive RoomChange (foundEmpty : Prop) (uuid : String) :
    Handler → Option Room → Option Room → Prop
  | opened {user metadata} : metadata.uuid = uuid → metadata.isActive = false →
      MenuRequestHandler.isValidRoomDetails metadata = true →
      RoomChange foundEmpty uuid (.menu user) none (some ⟨metadata, [user]⟩)
  | joined {user} {room : Room} : user ∉ room.users →
      room.users.length < room.metadata.maxPlayers.toNat →
      RoomChange foundEmpty uuid (.menu user) (some room)
        (some { room with users := room.users ++ [user] })
  | left {roomName user room} : RoomChange foundEmpty uuid (.roomMember uuid roomName user)
      (some room) (some (room.removeUser user))
  | started {user room} :
      RoomChange foundEmpty uuid (.roomAdmin uuid user) (some room) (some (room.setIsActive true))
  | closed {user room} : RoomChange foundEmpty uuid (.roomAdmin uuid user) (some room) none
  | played {user room} :
      RoomChange foundEmpty uuid (.game uuid user) (some room) (some (room.removeUser user))
  | erased {user room} : foundEmpty → RoomChange foundEmpty uuid (.game uuid user) (some room) none

theorem readRoom_ok {α : Type} {uuid : String} {f : Room → α} {a : α}
    (hx : RoomOp.readRoom s uuid f = .ok (a, s')) :
    ∃ room, s.rooms[uuid]? = some room ∧ f room = a := by
  unfold RoomOp.readRoom at hx
  split at hx
  · cases hx
  · next room hroom =>
      cases hx
      exact ⟨room, hroom, rfl⟩

theorem writeRoom_ok {uuid : String} {f : Room → Room} {a : Unit}
    (hx : RoomOp.writeRoom s uuid f = .ok (a, s')) :
    ∃ room, s.rooms[uuid]? = some room ∧ s' = { s with rooms := s.rooms.insert uuid (f room) } := by
  unfold RoomOp.writeRoom at hx
  split at hx
  · cases hx
  · next room hroom =>
      cases hx
      exact ⟨room, hroom, rfl⟩

theorem RoomOp.change {o : RoomOp} {r : o.Answer} (ho : h.MayCall P (.room o))
    (hs : (machine d).Step (.room o) s r s') {foundEmpty : Prop} {uuid : String}
    (hfound : o = .eraseRoom uuid → foundEmpty) :
    s'.rooms[uuid]? = s.rooms[uuid]? ∨
      RoomChange foundEmpty uuid h s.rooms[uuid]? s'.rooms[uuid]? := by
  obtain ⟨c, -, hx⟩ := hs
  cases o with
  | generateRoomUUID | getRooms | findRoom | getRoomState =>
      cases hx
      exact .inl rfl
  | getAllUsers | getMetadata => exact .inl (by rw [readRoom_eq hx])
  | getAllUsersAt => exact .inl (by rw [getAllUsersAt_eq (c := c) hx])
  | emplaceRoom id room =>
      cases hx
      obtain ⟨rfl, hactive, hvalid, user, rfl, husers⟩ := ho
      rw [Std.TreeMap.getElem?_insertIfNew]
      split_ifs with hnew
      · obtain rfl := Std.LawfulEqCmp.eq_of_compare hnew.1
        have hnone : s.rooms[room.metadata.uuid]? = none :=
          Std.TreeMap.getElem?_eq_none hnew.2
        rw [hnone]
        obtain ⟨metadata, users⟩ := room
        obtain rfl : users = [user] := husers
        exact .inr (.opened rfl hactive hvalid)
      · exact .inl rfl
  | deleteRoom id =>
      cases hx
      obtain ⟨user, rfl⟩ := ho
      rw [getElem?_erase_room]
      split_ifs with hid
      · subst hid
        cases hroom : s.rooms[uuid]? with
        | none => exact .inl rfl
        | some room => exact .inr .closed
      · exact .inl rfl
  | removeUserAt id user =>
      obtain rfl : h = .game id user := ho
      simp only [Op.exec, RoomOp.exec] at hx
      split at hx
      · cases hx
      · next room hroom =>
          cases hx
          rw [getElem?_insert_room]
          split_ifs with hid
          · subst hid
            rw [hroom]
            exact .inr .played
          · exact .inl rfl
  | eraseRoom id =>
      cases hx
      obtain ⟨user, rfl⟩ := ho
      rw [getElem?_erase_room]
      split_ifs with hid
      · subst hid
        cases hroom : s.rooms[uuid]? with
        | none => exact .inl rfl
        | some room => exact .inr (.erased (hfound rfl))
      · exact .inl rfl
  | addUser id user =>
      obtain rfl : h = .menu user := ho
      simp only [Op.exec, RoomOp.exec] at hx
      split at hx
      · cases hx
      · next room hroom =>
          split at hx
          · cases hx
            exact .inl rfl
          · next room' hadd =>
              cases hx
              obtain ⟨hlt, hmem, rfl⟩ := Room.addUser_ok hadd
              rw [getElem?_insert_room]
              split_ifs with hid
              · subst hid
                rw [hroom]
                exact .inr (.joined hmem hlt)
              · exact .inl rfl
  | removeUser id user =>
      obtain ⟨roomName, rfl⟩ := ho
      obtain ⟨room, hroom, rfl⟩ := writeRoom_ok hx
      rw [getElem?_insert_room]
      split_ifs with hid
      · subst hid
        rw [hroom]
        exact .inr .left
      · exact .inl rfl
  | setIsActive id isActive =>
      obtain ⟨rfl, user, rfl⟩ := ho
      obtain ⟨room, hroom, rfl⟩ := writeRoom_ok hx
      rw [getElem?_insert_room]
      split_ifs with hid
      · subst hid
        rw [hroom]
        exact .inr .started
      · exact .inl rfl

/-- A call that changes a room makes one of the changes that its handler may make. -/
theorem roomChange_of_step {o : Op} {r : o.Answer} (ho : h.MayCall P o)
    (hs : (machine d).Step o s r s') {foundEmpty : Prop} {uuid : String}
    (hfound : o = .room (.eraseRoom uuid) → foundEmpty) :
    s'.rooms[uuid]? = s.rooms[uuid]? ∨
      RoomChange foundEmpty uuid h s.rooms[uuid]? s'.rooms[uuid]? := by
  cases o with
  | room o => exact RoomOp.change ho hs fun ho' => hfound (congrArg Op.room ho')
  | _ =>
      cases Op.frame hs
      exact .inl rfl

/-- What every room keeps: the key it is stored under, settings that were accepted, and no
more users than it is for, each once. -/
structure Room.WellFormed (uuid : String) (room : Room) : Prop where
  uuid_eq : room.metadata.uuid = uuid
  valid : MenuRequestHandler.isValidRoomDetails room.metadata = true
  nodup : room.users.Nodup
  length_le : room.users.length ≤ room.metadata.maxPlayers.toNat

namespace Room.WellFormed

variable {uuid : String} {room : Room}

theorem removeUser (hroom : room.WellFormed uuid) (user : LoggedUser) :
    (room.removeUser user).WellFormed uuid where
  uuid_eq := hroom.uuid_eq
  valid := hroom.valid
  nodup := hroom.nodup.filter _
  length_le := (List.length_filter_le ..).trans hroom.length_le

theorem change {foundEmpty : Prop} {before : Option Room}
    (hbefore : ∀ room, before = some room → room.WellFormed uuid)
    (hchange : RoomChange foundEmpty uuid h before (some room)) : room.WellFormed uuid := by
  cases hchange with
  | opened huuid _ hvalid =>
      have hbounds := isValidRoomDetails_bounds hvalid
      exact ⟨huuid, hvalid, List.nodup_singleton _, by simp; omega⟩
  | @joined user room hmem hlt =>
      obtain ⟨huuid, hvalid, hnodup, -⟩ := hbefore room rfl
      refine ⟨huuid, hvalid, ?_, ?_⟩
      · exact hnodup.append (List.nodup_singleton user) (List.disjoint_singleton.mpr hmem)
      · simp only [List.length_append, List.length_singleton]
        omega
  | left => exact (hbefore _ rfl).removeUser _
  | started =>
      obtain ⟨huuid, hvalid, hnodup, hle⟩ := hbefore _ rfl
      exact ⟨huuid, hvalid, hnodup, hle⟩
  | played => exact (hbefore _ rfl).removeUser _

end Room.WellFormed

/-! ## Games -/

/-- The changes of one game, and the handlers that make them. -/
inductive GameChange (g : String) : Handler → Game → Game → Prop
  | punished {h user gm gm'} : Handler.InGame h g user → gm.punishPlayer user = .ok gm' →
      GameChange g h gm gm'
  | left {h user gm} : Handler.InGame h g user → GameChange g h gm (gm.removePlayer user)
  | submitted {h user player gm gm'} : Handler.InGame h g user →
      gm.markUserResultsAsSubmittedToDB player = .ok gm' → GameChange g h gm gm'
  | answered {user gm gm' answerIndex questionIndex answerTime correct} :
      gm.recordAnswer user answerIndex questionIndex answerTime = .ok (correct, gm') →
      GameChange g (.game g user) gm gm'

/-- The changes of the list of games at a time. -/
inductive GamesChange (now : ℕ) : Handler → List Game → List Game → Prop
  | created {user games questions players uuid timePerQuestion} :
      Playable questions players timePerQuestion →
      GamesChange now (.roomAdmin uuid user) games
        (games ++ [.new questions players uuid timePerQuestion now])
  | changed {h g games gm gm'} : games.find? (·.uuid = g) = some gm → GameChange g h gm gm' →
      GamesChange now h games (games.map fun g' => if g'.uuid = g then gm' else g')
  | erased {h g user games} : Handler.InGame h g user →
      GamesChange now h games (games.eraseP (·.uuid = g))

theorem GameChange.of_update {g : String} {user : LoggedUser} {gm gm' : Game} {r : Unit}
    {f : LoggedUser → Except Fault Game}
    (hf : (f user).map ((), ·) = .ok (r, gm')) (hgm : f user = .ok gm' → GameChange g h gm gm') :
    GameChange g h gm gm' := by
  cases hupdate : f user with
  | error e => simp [hupdate, Except.map] at hf
  | ok gm'' =>
      simp only [hupdate, Except.map, Except.ok.injEq, Prod.mk.injEq, true_and] at hf
      exact hgm (hf ▸ hupdate)

theorem GameOp.change {o : GameOp} {r : o.Answer} (ho : h.MayCall P (.game o))
    (hs : (machine d).Step (.game o) s r s') :
    s'.games = s.games ∨ GamesChange s'.clock h s.games s'.games := by
  obtain ⟨c, -, hx⟩ := hs
  cases o with
  | pushGame questions players uuid timePerQuestion =>
      cases hx
      obtain ⟨⟨user, rfl⟩, hplayable⟩ := ho
      exact .inr (.created hplayable)
  | getGameById id =>
      simp only [Op.exec, GameOp.exec] at hx
      split_ifs at hx
      cases hx
      exact .inl rfl
  | isFinished g =>
      rw [readGame_eq hx]
      exact .inl rfl
  | getCurrentQuestion g =>
      rw [readGame_eq hx]
      exact .inl rfl
  | checkAnswer g answerIndex questionIndex =>
      rw [readGame_eq hx]
      exact .inl rfl
  | getPlayersResults g =>
      rw [readGame_eq hx]
      exact .inl rfl
  | getOnlinePlayers g =>
      rw [readGame_eq hx]
      exact .inl rfl
  | submitting g user data =>
      cases hx
      exact .inl rfl
  | sleepUntilReleased g time =>
      obtain ⟨k, -, rfl⟩ := sleepUntilReleased_eq hx
      exact .inl rfl
  | eraseGame g =>
      simp only [Op.exec, GameOp.exec] at hx
      split_ifs at hx
      cases hx
      obtain ⟨user, hin⟩ := ho
      exact .inr (.erased hin)
  | punishPlayer g user =>
      obtain ⟨gm, gm', hgm, hf, rfl⟩ := writeGame_ok hx
      exact .inr (.changed hgm (GameChange.of_update (f := gm.punishPlayer) hf (.punished ho)))
  | removePlayer g user =>
      obtain ⟨gm, gm', hgm, hf, rfl⟩ := writeGame_ok hx
      cases hf
      exact .inr (.changed hgm (.left ho))
  | markUserResultsAsSubmittedToDB g player =>
      obtain ⟨gm, gm', hgm, hf, rfl⟩ := writeGame_ok hx
      obtain ⟨user, hin⟩ := ho
      exact .inr (.changed hgm
        (GameChange.of_update (f := gm.markUserResultsAsSubmittedToDB) hf (.submitted hin)))
  | recordAnswer g user answerIndex questionIndex answerTime =>
      obtain ⟨gm, gm', hgm, hf, rfl⟩ := writeGame_ok hx
      obtain rfl : h = .game g user := ho
      exact .inr (.changed hgm (.answered hf))

/-- A call that changes the games makes one of the changes that its handler may make. -/
theorem gamesChange_of_step {o : Op} {r : o.Answer} (ho : h.MayCall P o)
    (hs : (machine d).Step o s r s') :
    s'.games = s.games ∨ GamesChange s'.clock h s.games s'.games := by
  cases o with
  | game o => exact GameOp.change ho hs
  | _ =>
      cases Op.frame hs
      exact .inl rfl

/-- What every game keeps: it became what it is through its own operations, its questions are
built from stored ones, each player answers exactly these, and only its players are online. -/
structure Game.Sound (now : ℕ) (gm : Game) : Prop where
  played : gm.Played
  questions_le : 2 ≤ gm.questions.length
  built : ∀ q ∈ gm.questions, q.Built
  time_le : 5 ≤ gm.timePerQuestion.toNat
  started : gm.gameStartTime ≤ now
  nodup : gm.onlinePlayers.Nodup
  online : ∀ user ∈ gm.onlinePlayers, gm.players[user]? ≠ none
  asked : ∀ (user : LoggedUser) data, gm.players[user]? = some data →
    data.answers.map Prod.fst = gm.questions

/-- An answer never changes the question it is for. -/
theorem GameData.submitAnswer_questions (data : GameData) (answerIndex answerTime : UInt32)
    (questionIndex : ℕ) :
    (data.submitAnswer answerIndex questionIndex answerTime).answers.map Prod.fst =
      data.answers.map Prod.fst := by
  apply List.ext_getElem?
  intro i
  simp only [submitAnswer, List.getElem?_map, List.getElem?_modify, Option.map_eq_map,
    Option.map_map]
  congr 1
  funext answer
  by_cases hi : questionIndex = i <;> simp [hi]

namespace Game.Sound

variable {gm gm' : Game} {now : ℕ}

theorem later {now' : ℕ} (hgm : gm.Sound now) (hnow : now ≤ now') : gm.Sound now' :=
  { hgm with started := hgm.started.trans hnow }

theorem new {questions : List Question} {players : List LoggedUser} {timePerQuestion : UInt32}
    (hplayable : Playable questions players timePerQuestion) (uuid : String) :
    (Game.new questions players uuid timePerQuestion now).Sound now where
  played := .new ..
  questions_le := hplayable.questions_le
  built := hplayable.built
  time_le := hplayable.time_le
  started := le_rfl
  nodup := hplayable.nodup
  online user huser := by
    have hmem : user ∈ players := huser
    simp [Game.new_players, hmem]
  asked user data hdata := by
    rw [Game.new_players] at hdata
    split_ifs at hdata
    cases hdata
    simp [GameData.new, Game.new, Function.comp_def]

/-- A change of one player's data that leaves the questions as they are. -/
theorem setPlayer (hgm : gm.Sound now) {user : LoggedUser} {data data' : GameData}
    (hdata : gm.players[user]? = some data)
    (hsame : data'.answers.map Prod.fst = data.answers.map Prod.fst)
    (hplayed : (gm.setPlayers (gm.players.insert user data')).Played) :
    (gm.setPlayers (gm.players.insert user data')).Sound now where
  played := hplayed
  questions_le := hgm.questions_le
  built := hgm.built
  time_le := hgm.time_le
  started := hgm.started
  nodup := hgm.nodup
  online user' huser' := by
    rw [Game.setPlayers_players, Std.TreeMap.getElem?_insert]
    split_ifs
    · exact Option.some_ne_none _
    · exact hgm.online user' huser'
  asked user' data'' hdata'' := by
    rw [Game.setPlayers_players, Std.TreeMap.getElem?_insert] at hdata''
    split_ifs at hdata''
    · cases hdata''
      exact hsame.trans (hgm.asked user data hdata)
    · exact hgm.asked user' data'' hdata''

theorem removePlayer (hgm : gm.Sound now) (user : LoggedUser) :
    (gm.removePlayer user).Sound now where
  played := hgm.played.removePlayer user
  questions_le := hgm.questions_le
  built := hgm.built
  time_le := hgm.time_le
  started := hgm.started
  nodup := hgm.nodup.filter _
  online user' huser' := hgm.online user' (List.mem_of_mem_filter huser')
  asked := hgm.asked

theorem change {g : String} (hgm : gm.Sound now) (hchange : GameChange g h gm gm') :
    gm'.Sound now := by
  cases hchange with
  | punished _ hf =>
      obtain ⟨data, hdata, rfl⟩ := updatePlayer_ok (r := ()) (congrArg (Except.map ((), ·)) hf)
      exact hgm.setPlayer hdata rfl (hgm.played.punishPlayer hf)
  | left _ => exact hgm.removePlayer _
  | submitted _ hf =>
      obtain ⟨data, hdata, rfl⟩ := updatePlayer_ok (r := ()) (congrArg (Except.map ((), ·)) hf)
      exact hgm.setPlayer hdata rfl (hgm.played.markUserResultsAsSubmittedToDB hf)
  | answered hf =>
      obtain ⟨data, question, hdata, -, -, -, rfl⟩ := Game.recordAnswer_ok hf
      exact hgm.setPlayer hdata (data.submitAnswer_questions ..) (hgm.played.recordAnswer hf)

end Game.Sound

theorem GamesChange.sound {games games' : List Game} {now : ℕ}
    (hgames : ∀ gm ∈ games, gm.Sound now) (hchange : GamesChange now h games games') :
    ∀ gm ∈ games', gm.Sound now := by
  cases hchange with
  | created hplayable =>
      intro gm hgm
      rcases List.mem_append.mp hgm with hgm | hgm
      · exact hgames gm hgm
      · rw [List.mem_singleton.mp hgm]
        exact .new hplayable _
  | changed hfind hchange =>
      have hold := hgames _ (List.mem_of_find?_eq_some hfind)
      intro gm hgm
      obtain ⟨gm₀, hgm₀, rfl⟩ := List.mem_map.mp hgm
      split_ifs
      · exact hold.change hchange
      · exact hgames gm₀ hgm₀
  | erased _ => exact fun gm hgm => hgames gm (List.mem_of_mem_eraseP hgm)

/-! ## Accounts -/

/-- The changes of the account with an id, and the handlers that make them. -/
inductive AccountChange (P : Platform) : Handler → Option User → Option User → Prop
  | signedUp {user} : user.Accepted P → (P.isValidBirthday user.birthday).1 = true →
      AccountChange P .login none (some user)
  | removed {h user} : Handler.Verifies h → AccountChange P h (some user) none
  | updated {user address phoneNumber password avatarColor} :
      AcceptedUpdate P address phoneNumber password avatarColor →
      AccountChange P (.menu ⟨user.username⟩) (some user)
        (some { user with
          address, phoneNumber, avatarColor
          password := password.getD user.password })

/-- The row that belongs to an id. -/
def Database.user? (db : Database) (id : ℕ) : Option User := db.users.find? (·.id = id)

namespace Database

variable {db db' : Database} {id : ℕ}

theorem Inserted.user? {row : User} (hins : db.Inserted row db') (id : ℕ) :
    db'.user? id = if id = db.nextUserId then some { row with id } else db.user? id := by
  rw [Database.user?, hins.users, List.find?_append]
  split_ifs with hid
  · subst hid
    have hnone : db.users.find? (·.id = db.nextUserId) = none := by
      simpa using fun user huser => (db.ids_lt user huser).ne
    simp [hnone]
  · simp [Database.user?, Ne.symm hid]

theorem user?_removeUser (id' : ℕ) :
    (db.removeUser id').user? id = if id = id' then none else db.user? id := by
  simp only [Database.user?, removeUser, List.find?_filter]
  split_ifs with hid
  · subst hid
    simp
  · congr 1
    funext user
    by_cases huser : user.id = id <;> simp [huser, hid]

theorem user?_updateUser (name address phoneNumber : String) (password : Option String)
    (avatarColor : UInt8) :
    (db.updateUser name address phoneNumber password avatarColor).user? id =
      (db.user? id).map fun user =>
        if user.username = name then
          { user with
            address, phoneNumber, avatarColor
            password := password.getD user.password }
        else user := by
  simp only [Database.user?, updateUser, List.find?_map]
  congr 1
  refine congrArg (fun p => List.find? p db.users) (funext fun user => ?_)
  by_cases huser : user.username = name <;> simp [huser]

end Database

theorem User.Accepted.withId {row : User} (h : row.Accepted P) {id : ℕ} :
    User.Accepted P { row with id } where
  toAcceptedUpdate := h.toAcceptedUpdate
  username := h.username
  email := h.email

theorem DbOp.change {o : DbOp} {r : o.Answer} (ho : h.MayCall P (.database o))
    (hs : (machine d).Step (.database o) s r s') (id : ℕ) :
    s'.database.user? id = s.database.user? id ∨
      AccountChange P h (s.database.user? id) (s'.database.user? id) := by
  obtain ⟨c, db, -, hx, rfl⟩ := DbOp.step_eq hs
  rcases DbOp.exec_cases hx with ⟨-, -, rfl⟩ | ⟨-, happly⟩
  · exact .inl rfl
  cases o with
  | insertUser row =>
      obtain ⟨rfl, haccepted, hbirthday⟩ := ho
      simp only [DbOp.apply] at happly
      split at happly
      · next id' db' hinsert =>
          cases happly
          obtain ⟨rfl, hins⟩ := Database.insertUser_eq_some hinsert
          rw [show (s.setDatabase db).database = db from rfl, hins.user?]
          split_ifs with hid
          · subst hid
            have hnone : s.database.user? s.database.nextUserId = none := by
              simpa [Database.user?] using fun user huser => (s.database.ids_lt user huser).ne
            rw [hnone]
            exact .inr (.signedUp haccepted.withId hbirthday)
          · exact .inl rfl
      · cases happly
        exact .inl rfl
  | removeUser id' =>
      cases happly
      rw [show (s.setDatabase (s.database.removeUser id')).database = s.database.removeUser id'
        from rfl, Database.user?_removeUser]
      split_ifs with hid
      · cases huser : s.database.user? id with
        | none => exact .inl rfl
        | some user => exact .inr (.removed ho)
      · exact .inl rfl
  | updateUser name address phoneNumber password avatarColor =>
      cases happly
      obtain ⟨rfl, haccepted⟩ := ho
      rw [show (s.setDatabase (s.database.updateUser name address phoneNumber password
        avatarColor)).database = s.database.updateUser name address phoneNumber password
        avatarColor from rfl, Database.user?_updateUser]
      cases huser : s.database.user? id with
      | none => exact .inl rfl
      | some user =>
          rw [Option.map_some]
          split_ifs with hname
          · subst hname
            exact .inr (.updated haccepted)
          · exact .inl rfl
  | _ =>
      cases happly
      exact .inl rfl

/-- A call that changes an account makes one of the changes that its handler may make. -/
theorem accountChange_of_step {o : Op} {r : o.Answer} (ho : h.MayCall P o)
    (hs : (machine d).Step o s r s') (id : ℕ) :
    s'.database.user? id = s.database.user? id ∨
      AccountChange P h (s.database.user? id) (s'.database.user? id) := by
  cases o with
  | database o => exact DbOp.change ho hs id
  | _ =>
      cases Op.frame hs
      exact .inl rfl

/-! ## Runs -/

/-- The rooms and the games, each as it should be. -/
structure Managers.Orderly (s : Managers) : Prop where
  rooms : ∀ uuid (room : Room), s.rooms[uuid]? = some room → room.WellFormed uuid
  games : ∀ gm ∈ s.games, gm.Sound s.clock

namespace Managers.Orderly

theorem init (database : Database) : (Managers.init database).Orderly where
  rooms uuid room hroom := by
    simp [Managers.init] at hroom
  games gm hgm := by cases hgm

theorem step (hs : s.Orderly) {o : Op} {r : o.Answer} (ho : h.MayCall P o)
    (hstep : (machine d).Step o s r s') : s'.Orderly where
  rooms uuid room hroom := by
    have hmade : s'.rooms[uuid]? = s.rooms[uuid]? ∨
        RoomChange True uuid h s.rooms[uuid]? s'.rooms[uuid]? :=
      roomChange_of_step ho hstep fun _ => trivial
    rcases hmade with hsame | hchange
    · exact hs.rooms uuid room (hsame ▸ hroom)
    · rw [hroom] at hchange
      exact Room.WellFormed.change (hs.rooms uuid) hchange
  games := by
    have hgames : ∀ gm ∈ s.games, gm.Sound s'.clock := fun gm hgm =>
      (hs.games gm hgm).later (Op.clock_le hstep)
    rcases gamesChange_of_step ho hstep with hsame | hchange
    · rwa [hsame]
    · exact hchange.sound hgames

theorem assumed (hs : s.Orderly) {o : Op} {r : o.Answer} (hstep : (machine d).Step o s r s') :
    Handler.Assumed ⟨o, r⟩ := by
  obtain ⟨c, -, hx⟩ := hstep
  cases o with
  | login o => trivial
  | database o => trivial
  | game o => trivial
  | room o =>
      cases o with
      | getMetadata uuid =>
          obtain ⟨room, hroom, rfl⟩ := readRoom_ok hx
          have hwell := hs.rooms uuid room hroom
          exact ⟨hwell.uuid_eq, hwell.valid⟩
      | getAllUsers uuid =>
          obtain ⟨room, hroom, rfl⟩ := readRoom_ok hx
          exact (hs.rooms uuid room hroom).nodup
      | _ => trivial
  | external o =>
      cases o with
      | shuffle answers =>
          cases hx
          simp only [Handler.Assumed]
          split_ifs with hperm
          · exact List.isPerm_iff.mp hperm
          · exact .refl _
      | _ => trivial

end Managers.Orderly

/-- While a request is served the connection stands where its handler does. -/
theorem handlers_standing {cfg : ServerConfig} (hrun : InterleavedRun P d cfg) :
    ∀ c session request p, cfg.clients c = .busy session request p →
      (handlers P).standing c cfg.trace = session.handler := by
  obtain ⟨database, hrun⟩ := hrun
  refine hrun.invariant (I := fun cfg => ∀ c session request p,
    cfg.clients c = .busy session request p →
      (handlers P).standing c cfg.trace = session.handler) ?_ ?_
  · intro c session request p hbusy
    cases hbusy
  intro cfg l cfg' hcfg _ hstep c session request p hbusy
  have hother : ∀ {c'} {client : Client operations Session RequestInfo RequestResult} {o},
      c ≠ c' → Function.update cfg.clients c' client c = .busy session request p →
      (handlers P).standing c (cfg.trace ++ [(c', o)]) = session.handler := by
    intro c' client o hne hupdate
    rw [Function.update_of_ne hne] at hupdate
    rw [(handlers P).standing_other hne]
    exact hcfg c session request p hupdate
  cases hstep with
  | @connect c' hc' =>
      by_cases hc : c = c'
      · subst hc
        simp only [Function.update_self, reduceCtorEq] at hbusy
      · simp only [Function.update_of_ne hc] at hbusy
        exact hcfg c session request p hbusy
  | @receive c' session' request' hc' _ =>
      by_cases hc : c = c'
      · subst hc
        simp only [Function.update_self, Client.busy.injEq] at hbusy
        rw [(handlers P).standing_self, ← hbusy.1]
        rfl
      · exact hother hc hbusy
  | @perform c' session' request' o next r s' hc' _ =>
      by_cases hc : c = c'
      · subst hc
        simp only [Function.update_self, Client.busy.injEq] at hbusy
        rw [(handlers P).standing_self, ← hbusy.1, ← hcfg c session' request' _ hc']
        rfl
      · exact hother hc hbusy
  | @finish c' session' request' a o hc' =>
      by_cases hc : c = c'
      · subst hc
        simp only [Function.update_self] at hbusy
        cases hnext : (handleClient P).next request' a o <;> rw [hnext] at hbusy <;> cases hbusy
      · exact hother hc hbusy

theorem InterleavedRun.orderly {cfg : ServerConfig} (hrun : InterleavedRun P d cfg) :
    cfg.shared.Orderly ∧ ∀ c, (handlers P).Keeps (handleClient P) (fun _ _ => True)
      (fun _ => True) cfg c := by
  obtain ⟨database, hrun⟩ := hrun
  refine (handleClient_confined P).reachable (I := fun s _ => s.Orderly) ?_ ?_ ?_ hrun
    ⟨.init database, fun c => rfl⟩
  · intro cfg c session request horderly _ _ _
    exact horderly
  · intro cfg c session request o next r s' horderly _ _ ho hs
    exact ⟨horderly.assumed hs, horderly.step ho hs⟩
  · intro s trace c session request r sent horderly _
    exact horderly

theorem InterleavedRun.mayCall {cfg : ServerConfig} (hrun : InterleavedRun P d cfg) {c : ℕ}
    {session : Session} {request : RequestInfo} {o : Op} {next : o.Answer → Action RequestResult}
    (hc : cfg.clients c = .busy session request (.perform o next)) :
    session.handler.MayCall P o := by
  have hallowed := (hrun.orderly.2 c).allowed hc
  rwa [handlers_standing hrun c session request _ hc] at hallowed

/-- A step is a call of a connection whose request is served by the handler. -/
def ActsAs (cfg : ServerConfig) (l : Service.Label ℕ RequestInfo Bool) (h : Handler) : Prop :=
  ∃ c session request p, l = .perform c ∧ cfg.clients c = .busy session request p ∧
    session.handler = h

section Runs

variable {cfg cfg' : ServerConfig} {l : Service.Label ℕ RequestInfo Bool}

/-- In every run a connection performs only what the handler of its request may call. -/
theorem calls_confined (hrun : InterleavedRun P d cfg) {c : ℕ} {session : Session}
    {request : RequestInfo} {o : Op} {next : o.Answer → Action RequestResult}
    (hc : cfg.clients c = .busy session request (.perform o next)) : session.handler.MayCall P o :=
  hrun.mayCall hc

/-! The runs below are interleaved ones; their last step is a call. -/

/-- The configurations before and after the last call of a run. -/
def replayCall (plays : List ServerPlay) (c : ℕ) (choice : Choice) :
    Option (ServerConfig × ServerConfig) := do
  let cfg ← replayServer lobbyPlatform true sampleDatabase plays
  let cfg' ← Service.replayOne (handleClient lobbyPlatform) interpreter (Op.admits true)
    (.perform c choice) cfg
  return (cfg, cfg')

theorem replayCall_step {plays : List ServerPlay} {c : ℕ} {choice : Choice}
    (hreplay : replayCall plays c choice = some (cfg, cfg')) :
    InterleavedRun lobbyPlatform true cfg ∧
      Service.Step (handleClient lobbyPlatform) (machine true) cfg (.perform c) cfg' := by
  simp only [replayCall, Option.bind_eq_bind, Option.bind_eq_some_iff, Option.pure_def,
    Option.some.injEq, Prod.mk.injEq] at hreplay
  obtain ⟨_, hcfg, _, hcfg', rfl, rfl⟩ := hreplay
  exact ⟨interleavedRun_of_replay hcfg, Service.step_of_replayOne rfl hcfg'⟩

/-- `ann` logs in and creates a room, up to the moment when it is put into the map. -/
def roomBegun : List ServerPlay :=
  [.connect 0, .receive 0 (lobbyRequest .loginRequest 0)] ++ calls 0 [usual, usual, usual] ++
  [.finish 0 true, .receive 0 (lobbyRequest .createRoomRequest 4)] ++ calls 0 [{ text := "room" }]

/-- `bob` joins it and `ann` starts the game, up to the moment when it is put into the list. -/
def gameBegun : List ServerPlay :=
  roomBegun ++ calls 0 [usual] ++
  [.finish 0 true, .connect 1, .receive 1 (lobbyRequest .loginRequest 1)] ++
  calls 1 [usual, usual, usual] ++ [.finish 1 true, .receive 1 (lobbyRequest .joinRoomRequest 5)] ++
  calls 1 [usual, usual, usual] ++ [.finish 1 true, .receive 0 ⟨.startGameRequest, []⟩] ++
  calls 0 (List.replicate 9 usual)

/-- `eve` signs up, up to the moment when the account is inserted. -/
def signupBegun : List ServerPlay :=
  [.connect 0, .receive 0 (lobbyRequest .signupRequest 2)] ++ calls 0 (List.replicate 4 usual)

def emplacesNext (client : Client operations Session RequestInfo RequestResult) : Bool :=
  match client with
  | .busy _ _ (.perform (.room (.emplaceRoom uuid _)) _) => uuid = "room"
  | _ => false

theorem busy_of_emplacesNext {client : Client operations Session RequestInfo RequestResult}
    (h : emplacesNext client = true) : ∃ session request room next,
      client = .busy session request (.perform (.room (.emplaceRoom "room" room)) next) := by
  unfold emplacesNext at h
  split at h
  · next session request uuid room next =>
      obtain rfl := of_decide_eq_true h
      exact ⟨session, request, room, next, rfl⟩
  · cases h

theorem replay_roomBegun : ∃ cfg cfg' : ServerConfig,
    replayCall roomBegun 0 usual = some (cfg, cfg') ∧ emplacesNext (cfg.clients 0) = true := by
  have hrun : ((replayCall roomBegun 0 usual).any fun pair =>
      emplacesNext (pair.1.clients 0)) = true := by decide +kernel
  obtain ⟨⟨cfg, cfg'⟩, hreplay, hnext⟩ := (Option.any_eq_true _ _).mp hrun
  exact ⟨cfg, cfg', hreplay, hnext⟩

theorem replay_gameBegun : ∃ (cfg cfg' : ServerConfig) (room : Room) (gm : Game),
    replayCall gameBegun 0 usual = some (cfg, cfg') ∧ cfg.shared.rooms["room"]? = some room ∧
      room.users.length = 2 ∧ cfg.shared.games = [] ∧ gm ∈ cfg'.shared.games := by
  have hrun : ((replayCall gameBegun 0 usual).any fun pair =>
      (pair.1.shared.rooms["room"]?.any fun room => room.users.length = 2) &&
      (pair.1.shared.games.isEmpty && pair.2.shared.games.head?.isSome)) = true := by
    decide +kernel
  obtain ⟨⟨cfg, cfg'⟩, hreplay, hcheck⟩ := (Option.any_eq_true _ _).mp hrun
  simp only [Bool.and_eq_true, Option.any_eq_true, List.isEmpty_iff,
    Option.isSome_iff_exists] at hcheck
  obtain ⟨⟨room, hroom, hlength⟩, hnone, gm, hgm⟩ := hcheck
  exact ⟨cfg, cfg', room, gm, hreplay, hroom, of_decide_eq_true hlength, hnone,
    List.mem_of_mem_head? hgm⟩

theorem calls_confined_emplace : ∃ (cfg : ServerConfig) (session : Session)
    (request : RequestInfo) (room : Room) (next : Unit → Action RequestResult),
    cfg.clients 0 = .busy session request (.perform (.room (.emplaceRoom "room" room)) next) ∧
    session.handler.MayCall lobbyPlatform (.room (.emplaceRoom "room" room)) := by
  obtain ⟨cfg, cfg', hreplay, hnext⟩ := replay_roomBegun
  obtain ⟨session, request, room, next, hbusy⟩ := busy_of_emplacesNext hnext
  exact ⟨cfg, session, request, room, next, hbusy,
    calls_confined (replayCall_step hreplay).1 hbusy⟩

theorem shared_change (hrun : InterleavedRun P d cfg)
    (hstep : Service.Step (handleClient P) (machine d) cfg l cfg') : cfg'.shared = cfg.shared ∨
      ∃ (h : Handler) (o : Op) (r : o.Answer), ActsAs cfg l h ∧ h.MayCall P o ∧
        (machine d).Step o cfg.shared r cfg'.shared := by
  cases hstep with
  | @perform c session request o next r s' hc hs =>
      exact .inr ⟨session.handler, o, r, ⟨c, session, request, _, rfl, hc, rfl⟩,
        hrun.mayCall hc, hs⟩
  | _ => exact .inl rfl

theorem rooms_wellFormed (hrun : InterleavedRun P d cfg) {uuid : String} {room : Room}
    (hroom : cfg.shared.rooms[uuid]? = some room) : room.WellFormed uuid :=
  hrun.orderly.1.rooms uuid room hroom

theorem rooms_wellFormed_first : ∃ (cfg : ServerConfig) (room : Room),
    cfg.shared.rooms["room"]? = some room ∧ room.users.length = 2 ∧ room.WellFormed "room" := by
  obtain ⟨cfg, cfg', room, -, hreplay, hroom, hlength, -⟩ := replay_gameBegun
  exact ⟨cfg, room, hroom, hlength, rooms_wellFormed (replayCall_step hreplay).1 hroom⟩

theorem games_sound (hrun : InterleavedRun P d cfg) {gm : Game} (hgm : gm ∈ cfg.shared.games) :
    gm.Sound cfg.shared.clock :=
  hrun.orderly.1.games gm hgm

theorem games_sound_first : ∃ (cfg : ServerConfig) (gm : Game),
    gm ∈ cfg.shared.games ∧ gm.Sound cfg.shared.clock := by
  obtain ⟨cfg, cfg', -, gm, hreplay, -, -, -, hgm⟩ := replay_gameBegun
  obtain ⟨⟨database, hcfg⟩, hstep⟩ := replayCall_step hreplay
  exact ⟨cfg', gm, hgm, games_sound ⟨database, hcfg.tail ⟨_, trivial, hstep⟩⟩ hgm⟩

/-- A step of a run leaves an account as it is, or is a change its connection may make. -/
theorem accounts_change (hrun : InterleavedRun P d cfg)
    (hstep : Service.Step (handleClient P) (machine d) cfg l cfg') (id : ℕ) :
    cfg'.shared.database.user? id = cfg.shared.database.user? id ∨ ∃ h, ActsAs cfg l h ∧
      AccountChange P h (cfg.shared.database.user? id) (cfg'.shared.database.user? id) := by
  rcases shared_change hrun hstep with hsame | ⟨h, o, r, hacts, ho, hs⟩
  · exact .inl (by rw [hsame])
  · exact (accountChange_of_step ho hs id).imp_right fun hchange => ⟨h, hacts, hchange⟩

theorem accounts_change_signup : ∃ cfg cfg' : ServerConfig,
    cfg'.shared.database.user? 3 ≠ cfg.shared.database.user? 3 ∧
    (cfg'.shared.database.user? 3 = cfg.shared.database.user? 3 ∨
      ∃ h, ActsAs cfg (.perform 0) h ∧ AccountChange lobbyPlatform h
        (cfg.shared.database.user? 3) (cfg'.shared.database.user? 3)) := by
  have hrun : ((replayCall signupBegun 0 usual).any fun pair =>
      pair.2.shared.database.user? 3 ≠ pair.1.shared.database.user? 3) = true := by
    decide +kernel
  obtain ⟨⟨cfg, cfg'⟩, hreplay, hnew⟩ := (Option.any_eq_true _ _).mp hrun
  obtain ⟨hcfg, hstep⟩ := replayCall_step hreplay
  exact ⟨cfg, cfg', of_decide_eq_true hnew, accounts_change hcfg hstep 3⟩

end Runs

end TriviaServer
