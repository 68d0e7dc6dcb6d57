import TriviaServer.Verification.Rooms

/-! # The moves of the handlers

Each request moves the seat of its connection, and a fault says what it failed to find. -/

namespace TriviaServer

open Interaction

/-- Every room is stored under its own uuid. -/
def Keyed (s : Managers) : Prop :=
  ∀ (uuid : String) room, s.rooms[uuid]? = some room → room.metadata.uuid = uuid

variable {E : Fault → Prop} {s : Managers}

theorem silent_of_quiet {t : List (Event operations)} (ht : ∀ e ∈ t, e.1.Quiet E) : Silent t :=
  fun e he => (ht e he).apart.silent

/-- A deserializer makes no call. -/
theorem wp_deserialize {α : Type} {x : Except Fault α} (hx : Ensures E (fun _ => True) x)
    {Q : List (Event operations) → α → Managers → Prop} (h : ∀ a, Q [] a s) :
    wp (machine true) E (Action.lift x) Q s := by
  rw [wp_lift]
  cases x with
  | error e => exact hx
  | ok a => exact h a

/-! ## The menu -/

namespace MenuRequestHandler

variable {P : Platform} {user : LoggedUser} {request : RequestInfo}

theorem getRooms_moves (hs : Keyed s) : Moves s .outside (getRooms user) := by
  unfold Moves getRooms
  simp only [wp_bind]
  refine (wp_room .getRooms nofun _).mpr ?_
  refine wp_roomsResponse (fun metadata hmem hactive hnone => ?_) fun t response k ht => ?_
  · obtain ⟨⟨uuid, room⟩, hroom, rfl⟩ := List.mem_map.mp hmem
    have hget := Std.TreeMap.mem_toList_iff_getElem?_eq_some.mp hroom
    rw [hs uuid room hget] at hnone
    exact ⟨uuid, room, hget, hactive, hnone⟩
  · exact .stay rfl rfl (by simpa [Op.Silent] using ht)

theorem getPlayersInRoom_moves : Moves s .outside (getPlayersInRoom P user request) := by
  unfold Moves getPlayersInRoom
  rw [wp_bind]
  refine wp_deserialize (ensures_getPlayersInRoomRequest trivial _) fun r => ?_
  cases r with
  | error e => exact .stay rfl rfl (by simp)
  | ok request =>
      simp only [wp_bind]
      refine wp_getRoom (fun t e ht => ?_) fun t room ht hroom => ?_
      · exact .stay rfl rfl (by simpa using ht)
      · simp only [wp_bind]
        refine wp_getAllUsers (fun hnone => nomatch hnone.symm.trans hroom) fun _ _ => ?_
        refine wp_transformLoggedUsersToPlayers fun t' players ht' _ => ?_
        cases players <;> exact .stay rfl rfl (by simp [ht, ht', Op.Silent])

theorem joinRoom_moves : Moves s .outside (joinRoom P user request) := by
  unfold Moves joinRoom
  rw [wp_bind]
  refine wp_deserialize (ensures_joinRoomRequest trivial _) fun r => ?_
  cases r with
  | error e => exact .stay rfl rfl (by simp)
  | ok request =>
      simp only [wp_bind]
      refine wp_getRoom (fun t e ht => ?_) fun t room ht hroom => ?_
      · exact .stay rfl rfl (by simpa using ht)
      · simp only [wp_bind]
        refine wp_room_addUser (fun hnone => by cases hnone.symm.trans hroom) (fun e => ?_)
          fun room room' hroom hadd => ?_
        · exact .stay rfl rfl (by simp [ht, Op.Silent])
        · unfold RequestHandlerFactory.createRoomMemberRequestHandler
          simp only [wp_bind]
          refine wp_getMetadata (fun hnone => ?_) fun r _ => ?_
          · rw [getElem?_insert_room, if_pos rfl] at hnone
            cases hnone
          · have hrooms := getElem?_insert_room s.rooms request.roomId
            exact .joined hroom hadd (fun uuid' => hrooms uuid' room') rfl (by simp [ht, Op.Silent])

theorem createRoom_moves : Moves s .outside (createRoom P user request) := by
  unfold Moves createRoom
  rw [wp_bind]
  refine wp_deserialize (ensures_createRoomRequest trivial _) fun r => ?_
  cases r with
  | error e => exact .stay rfl rfl (by simp)
  | ok request =>
      dsimp only
      split_ifs with hvalid
      · exact .stay rfl rfl (by simp)
      · rw [wp_bind]
        refine wp_createRoom fun uuid room s' hnew hroom hrooms hgames => ?_
        have hplayers : 1 < request.maxPlayers.toNat := by
          simp only [isValidRoomDetails, Bool.not_eq_true', Bool.not_eq_false, Bool.and_eq_true,
            decide_eq_true_iff] at hvalid
          exact UInt32.lt_iff_toNat_lt.mp hvalid.1.1.2
        subst hroom
        exact .created hnew rfl rfl rfl hplayers hrooms hgames rfl

theorem logout_stays {E : Fault → Prop} : Stays E .outside (logout user) :=
  stays_bind (apart_login _) fun _ => stays_pure rfl

theorem getPersonalStatistics_stays {E : Fault → Prop} :
    Stays E .outside (getPersonalStatistics user) :=
  stays_reads (StatisticsManager.getUserStatistics_reads _) fun statistics => by
    cases statistics <;> exact stays_pure rfl

theorem getHighScores_stays {E : Fault → Prop} : Stays E .outside (getHighScores user) :=
  stays_reads SqliteDatabase.getHighScores_reads fun highScores => by
    cases highScores <;> exact stays_pure rfl

theorem getUserData_stays {E : Fault → Prop} : Stays E .outside (getUserData user) := by
  refine stays_reads (SqliteDatabase.getUserData_reads _) fun userData => ?_
  cases userData with
  | error e => exact stays_pure rfl
  | ok userData =>
      refine stays_reads (StatisticsManager.getUserStatistics_reads _) fun statistics => ?_
      cases statistics <;> exact stays_pure rfl

theorem updateUserData_stays {E : Fault → Prop} (hE : E .jsonType) :
    Stays E .outside (updateUserData P user request) := by
  refine stays_reads (lift_reads (ensures_updateUserDataRequest hE _)) fun r => ?_
  cases r with
  | error e => exact stays_pure rfl
  | ok userData =>
      dsimp only
      split_ifs
      · exact stays_pure rfl
      · refine stays_bind ?_ fun updated => ?_
        · unfold UsersManager.updateUserData SqliteDatabase.updateUser
          split
          · trivial
          · refine only_db_bind trivial fun updated => ?_
            cases updated <;> trivial
        · cases updated <;> exact stays_pure rfl

theorem handleRequest_moves (hs : Keyed s) : Moves s .outside (handleRequest P user request) := by
  have hnotRelevant : Moves s .outside (pure (notRelevant.toRequestResult (.menu user))) :=
    .stay rfl rfl (by simp)
  unfold handleRequest
  split_ifs
  · exact hnotRelevant
  · split
    · exact logout_stays.moves
    · exact getRooms_moves hs
    · exact getPlayersInRoom_moves
    · exact getHighScores_stays.moves
    · exact getPersonalStatistics_stays.moves
    · exact joinRoom_moves
    · exact createRoom_moves
    · exact getUserData_stays.moves
    · exact (updateUserData_stays trivial).moves
    · exact (stays_bind (apart_login _) fun _ => stays_pure rfl :
        Stays (Blame s .outside) .outside (exit user)).moves
    · exact hnotRelevant

end MenuRequestHandler

/-! ## Leaving a game -/

theorem depart_rooms {g : String} {user : LoggedUser} {gm : Game} {clock : ℕ}
    {players : Std.TreeMap LoggedUser GameData} {database : Database} :
    (s.depart g user gm clock players database).rooms = s.rooms := by
  unfold Managers.depart
  simp only
  split <;> rfl

/-- What a departure does, and which operations it uses. -/
theorem wp_departure {g : String} {gm : Game} {user : LoggedUser}
    {Q : List (Event operations) → Option Error → Managers → Prop} (hg : s.game? g = some gm)
    (hplayer : gm.players[user]? = none → gm.isFinished s.clock = false → E .playerNotFound)
    (hE : E .undefinedArithmetic)
    (h : ∀ k₁ k₂ k₃ players db t r, Departure true g user s gm k₁ k₂ k₃ players db t r →
      (∀ e ∈ t, e.1.Leaving g) → Q t r (s.depart g user gm k₃ players db)) :
    wp (machine true) E (GameManager.removePlayerFromGame g user) Q s := by
  have hwp := wp_removePlayerFromGame (d := true) (E := E)
    (Q := fun t r s' => ∃ k₁ k₂ k₃ players db,
      Departure true g user s gm k₁ k₂ k₃ players db t r ∧ s' = s.depart g user gm k₃ players db)
    hg hplayer hE fun k₁ k₂ k₃ players db t r hd => ⟨k₁, k₂, k₃, players, db, hd, rfl⟩
  refine wp_imp (wp_only (GameManager.leaving_removePlayerFromGame user) hwp) ?_
  rintro t r s' ⟨⟨k₁, k₂, k₃, players, db, hd, rfl⟩, ht⟩
  exact h k₁ k₂ k₃ players db t r hd ht

theorem submissionsOf_silent {t : List (Event operations)} (ht : Silent t) (g : String)
    (user : LoggedUser) : submissionsOf g user t = [] := by
  refine List.filterMap_eq_nil_iff.mpr fun e he => ?_
  have hs := ht e he
  split
  · exact hs.elim
  · rfl

theorem silentBut_of_leaving {g : String} {t : List (Event operations)}
    (ht : ∀ e ∈ t, e.1.Leaving g) : SilentBut g t := by
  intro e he
  have hleaving := ht e he
  generalize e.1 = o at hleaving
  cases o with
  | login o => exact hleaving.elim
  | room o => exact hleaving.elim
  | database o => exact .inl trivial
  | external o => exact .inl trivial
  | game o =>
      cases o with
      | pushGame => exact hleaving.elim
      | submitting g' user data =>
          cases (show g' = g from hleaving)
          exact .inr ⟨user, data, rfl⟩
      | _ => exact .inl trivial

/-- A departure among calls that book nothing. -/
theorem Departure.leaves {g : String} {user : LoggedUser} {s₀ s' : Managers} {gm : Game}
    {k₁ k₂ k₃ : ℕ} {players : Std.TreeMap LoggedUser GameData} {db : Database}
    {t t₀ : List (Event operations)} {r : Option Error}
    (hd : Departure true g user s₀ gm k₁ k₂ k₃ players db t₀ r) (hg : s.game? g = some gm)
    (hgames : s₀.games = s.games) (hclock : s.clock ≤ s₀.clock) (ht₀ : ∀ e ∈ t₀, e.1.Leaving g)
    (t₁ t₂ : List (Event operations)) (ht : t = t₁ ++ (t₀ ++ t₂)) (ht₁ : Silent t₁)
    (ht₂ : Silent t₂) (hread : readingsOf t₂ = [])
    (hgames' : s'.games = (s₀.depart g user gm k₃ players db).games) (hclock' : s'.clock = k₃) :
    Leaves s g user gm t s' where
  found := hg
  departure := by
    subst ht
    refine ⟨s₀, k₁, k₂, k₃, players, db, t₀, r, hgames, hclock, hd, hgames', hclock',
      fun p => ?_, ?_⟩
    · simp [submissionsOf_silent ht₁, submissionsOf_silent ht₂]
    · simp only [readingsOf_append, hread, List.append_nil]
      exact List.suffix_append _ _
  silent := by
    subst ht
    intro e he
    rcases List.mem_append.mp he with he | he
    · exact .inl (ht₁ e he)
    · rcases List.mem_append.mp he with he | he
      · exact silentBut_of_leaving ht₀ e he
      · exact .inl (ht₂ e he)

/-! ## Room members -/

namespace RoomMemberRequestHandler

variable {roomUuid roomName : String} {user : LoggedUser} {request : RequestInfo}

/-- The name may already be logged out. -/
theorem leaveRoom_moves (loggedUsers : List LoggedUser) (t₁ : List (Event operations))
    (ht₁ : Silent t₁) :
    wp (machine true) (Blame s (.member roomUuid user)) (leaveRoom roomUuid roomName user)
      (fun t r s' => Move s (t₁ ++ t) s' (.member roomUuid user) r.handler.seat)
      { s with loggedUsers } := by
  unfold leaveRoom
  simp only [wp_bind]
  refine wp_getRoomState fun state hstate => ?_
  cases hroom : s.rooms[roomUuid]? with
  | none =>
      simp only [hroom, Option.map_none] at hstate
      subst hstate
      exact .dismissed hroom rfl rfl (by simp [ht₁, Op.Silent])
  | some room =>
      simp only [hroom, Option.map_some] at hstate
      subst hstate
      cases hactive : room.metadata.isActive with
      | false =>
          simp only [hactive, Bool.false_eq_true, if_false, wp_bind]
          refine wp_removeUser (fun hnone => by cases hnone.symm.trans hroom) fun room' hroom' => ?_
          cases hroom.symm.trans hroom'
          refine .left hroom hactive (fun uuid' => ?_) rfl (by simp [ht₁, Op.Silent])
          exact getElem?_insert_room s.rooms _ uuid' _
      | true =>
          simp only [hactive, if_true, GameManager.removePlayerFromGameById, wp_bind]
          cases hg : s.game? roomUuid with
          | none => exact wp_getGameById_none hg ⟨roomUuid, room, hroom, hactive, hg⟩
          | some gm =>
              refine wp_getGameById (s := { s with loggedUsers }) hg ?_
              refine wp_departure (s := { s with loggedUsers }) hg
                (fun hnone hrunning => ⟨roomUuid, user, gm, hg, hnone, .inr ⟨rfl, hrunning⟩⟩)
                trivial fun k₁ k₂ k₃ players db t r hd ht => ?_
              refine wp_removeUser (fun hnone => ?_) fun room' hroom' => ?_
              · rw [depart_rooms] at hnone
                cases hnone.symm.trans hroom
              · rw [depart_rooms] at hroom'
                cases hroom.symm.trans hroom'
                refine .deserted hroom hactive (hd.leaves hg rfl le_rfl ht
                  (t₁ ++ [event (.room (.getRoomState roomUuid))
                      (some ⟨room.metadata, room.users⟩),
                    event (.game (.getGameById roomUuid)) ()])
                  [event (.room (.removeUser roomUuid user)) ()]
                  (by simp) (by simp [ht₁, Op.Silent]) (by simp [Op.Silent]) (by simp) rfl
                  depart_clock) fun uuid' => ?_
                rw [depart_rooms]
                exact getElem?_insert_room s.rooms _ uuid' _

theorem getRoomState_moves :
    Moves s (.member roomUuid user) (getRoomState roomUuid roomName user) := by
  unfold Moves getRoomState
  simp only [wp_bind]
  refine wp_getRoomState fun state hstate => ?_
  cases hroom : s.rooms[roomUuid]? with
  | none =>
      simp only [hroom, Option.map_none] at hstate
      subst hstate
      exact .dismissed hroom rfl rfl (by simp [Op.Silent])
  | some room =>
      simp only [hroom, Option.map_some] at hstate
      subst hstate
      simp only [wp_bind]
      refine wp_transformLoggedUsersToPlayers fun t players ht _ => ?_
      cases players with
      | error e => exact .stay rfl rfl (by simp [ht, Op.Silent])
      | ok players =>
          dsimp only
          split_ifs with hactive
          · rw [wp_bind]
            cases hg : s.game? roomUuid with
            | none => exact wp_getGameById_none hg ⟨roomUuid, room, hroom, hactive, hg⟩
            | some gm =>
                refine wp_getGameById hg ?_
                exact .entered hroom hactive hg rfl rfl (by simp [ht, Op.Silent])
          · exact .stay rfl rfl (by simp [ht, Op.Silent])

theorem handleRequest_moves :
    Moves s (.member roomUuid user) (handleRequest roomUuid roomName user request) := by
  unfold handleRequest
  dsimp only
  split_ifs
  · exact .stay rfl rfl (by simp)
  · split
    · exact leaveRoom_moves s.loggedUsers [] (by simp)
    · exact getRoomState_moves
    · unfold Moves leaveRoomAndExit LoginManager.logout
      rw [wp_bind, wp_login]
      exact leaveRoom_moves _ [_] (by simp [Op.Silent])
    · exact .stay rfl rfl (by simp)

end RoomMemberRequestHandler

/-! ## Room admins -/

theorem wp_pushGame {questions : List Question} {players : List LoggedUser} {uuid : String}
    {time : UInt32} {Q : List (Event operations) → Unit → Managers → Prop}
    (h : ∀ now, s.clock ≤ now → Q [event (.game (.pushGame questions players uuid time)) ()] ()
      { s with games := s.games ++ [.new questions players uuid time now], clock := now }) :
    wp (machine true) E (Action.game (.pushGame questions players uuid time)) Q s := by
  rw [wp_game]
  exact fun c => h _ (Nat.le_add_right ..)

namespace RoomAdminRequestHandler

variable {uuid : String} {user : LoggedUser} {request : RequestInfo}

theorem closeRoom_moves (hs : Keyed s) (loggedUsers : List LoggedUser)
    (t₁ : List (Event operations)) (ht₁ : Silent t₁) :
    wp (machine true) (Blame s (.admin uuid user)) (closeRoom uuid user)
      (fun t r s' => Move s (t₁ ++ t) s' (.admin uuid user) r.handler.seat)
      { s with loggedUsers } := by
  unfold closeRoom
  simp only [wp_bind]
  refine wp_getMetadata (fun hnone => ⟨uuid, user, rfl, hnone⟩) fun room hroom => ?_
  rw [hs uuid room hroom]
  refine wp_deleteRoom ?_
  refine .closed hroom (fun uuid' => ?_) rfl (by simp [ht₁, Op.Silent])
  exact getElem?_erase_room s.rooms uuid uuid'

/-- The game is made of what the room says, and nothing else changes but the tables. -/
theorem wp_createGame {Q : List (Event operations) → Result String → Managers → Prop}
    {room : Room} (hs : Keyed s) (hroom : s.rooms[uuid]? = some room)
    (herror : ∀ t e db, Silent t → Q t (.error e) (s.setDatabase db))
    (h : ∀ t questions db now, Silent t → s.clock ≤ now →
      Q (t ++ [event (.game (.pushGame questions room.users uuid room.metadata.timePerQuestion))
        ()]) (.ok uuid)
        { s.setDatabase db with
          games := (s.setDatabase db).games ++
            [.new questions room.users uuid room.metadata.timePerQuestion now]
          clock := now }) :
    wp (machine true) E (GameManager.createGame uuid) Q s := by
  have hmetadata : room.metadata.uuid = uuid := hs uuid room hroom
  have hfound : ∀ room', s.rooms[uuid]? = some room' → room' = room := fun room' h =>
    Option.some.inj (h.symm.trans hroom)
  unfold GameManager.createGame
  simp only [wp_bind]
  refine wp_getMetadata (fun hnone => nomatch hnone.symm.trans hroom) fun room₁ hroom₁ => ?_
  cases hfound room₁ hroom₁
  refine wp_quiet (quiet_of_reads (SqliteDatabase.getQuestions_reads _))
    fun t questions db ht _ => ?_
  have ht := silent_of_quiet ht
  cases questions with
  | error e => exact herror _ e db (by simpa [Op.Silent] using ht)
  | ok questions =>
      simp only [wp_bind]
      refine wp_getMetadata (fun hnone => nomatch hnone.symm.trans hroom) fun room₂ hroom₂ => ?_
      cases hfound room₂ hroom₂
      split_ifs
      · exact herror _ _ db (by simpa [Op.Silent] using ht)
      · simp only [wp_bind]
        refine wp_quiet (quiet_of_reads (GameManager.toQuestions_reads _))
          fun t' questions db' ht' _ => ?_
        have ht' := silent_of_quiet ht'
        rw [Managers.setDatabase_setDatabase]
        refine wp_getAllUsers (fun hnone => nomatch hnone.symm.trans hroom) fun room₃ hroom₃ => ?_
        cases hfound room₃ hroom₃
        refine wp_getMetadata (fun hnone => nomatch hnone.symm.trans hroom) fun room₄ hroom₄ => ?_
        cases hfound room₄ hroom₄
        rw [hmetadata]
        refine wp_pushGame fun now hnow => ?_
        have hdone := h (event (.room (.getMetadata uuid)) room.metadata ::
          (t ++ event (.room (.getMetadata uuid)) room.metadata ::
            (t' ++ [event (.room (.getAllUsers uuid)) room.users,
              event (.room (.getMetadata uuid)) room.metadata])))
          questions db' now (by simp [ht, ht', Op.Silent]) hnow
        simpa only [wp_pure, List.append_assoc, List.cons_append, List.nil_append,
          List.append_nil] using hdone

theorem startGame_moves (hs : Keyed s) : Moves s (.admin uuid user) (startGame uuid user) := by
  unfold Moves startGame
  simp only [wp_bind]
  refine wp_getAllUsers (fun hnone => ⟨uuid, user, rfl, hnone⟩) fun room hroom => ?_
  split_ifs
  · exact .stay rfl rfl (by simp [Op.Silent])
  · rw [wp_bind]
    refine wp_createGame hs hroom (fun t e db ht => ?_) fun t questions db now ht hnow => ?_
    · exact .stay rfl rfl (by simpa [Op.Silent] using ht)
    · simp only [wp_bind]
      refine wp_setIsActive (fun hnone => by cases hnone.symm.trans hroom) fun room' hroom' => ?_
      cases hroom.symm.trans hroom'
      refine .started hroom (fun uuid' => ?_) rfl hnow
        ⟨event (.room (.getAllUsers uuid)) room.users :: t,
          [event (.room (.setIsActive uuid true)) ()], ?_, by simpa [Op.Silent] using ht,
          by simp [Op.Silent]⟩
      · exact getElem?_insert_room s.rooms uuid uuid' _
      · simp

theorem getRoomState_moves (hs : Keyed s) :
    Moves s (.admin uuid user) (getRoomState uuid user) := by
  unfold Moves getRoomState
  simp only [wp_bind]
  refine wp_getMetadata (fun hnone => ⟨uuid, user, rfl, hnone⟩) fun room hroom => ?_
  rw [hs uuid room hroom]
  refine wp_getRoomState fun state hstate => ?_
  refine wp_getAllUsers (fun hnone => nomatch hnone.symm.trans hroom) fun _ _ => ?_
  refine wp_transformLoggedUsersToPlayers fun t players ht _ => ?_
  simp only [hroom, Option.map_some] at hstate
  subst hstate
  cases players <;> exact .stay rfl rfl (by simpa [Op.Silent] using ht)

theorem handleRequest_moves (hs : Keyed s) :
    Moves s (.admin uuid user) (handleRequest uuid user request) := by
  have hnotRelevant : Moves s (.admin uuid user)
      (pure (notRelevant.toRequestResult (.roomAdmin uuid user))) := .stay rfl rfl (by simp)
  unfold handleRequest
  split_ifs
  · exact hnotRelevant
  · split
    · exact closeRoom_moves hs s.loggedUsers [] (by simp)
    · exact startGame_moves hs
    · exact getRoomState_moves hs
    · unfold Moves closeRoomAndExit LoginManager.logout
      rw [wp_bind, wp_login]
      exact closeRoom_moves hs _ [_] (by simp [Op.Silent])
    · exact hnotRelevant

end RoomAdminRequestHandler

/-! ## Players -/

section Using

variable {g : String} {gm : Game}

theorem wp_isFinished_none {d : Bool} {Q : List (Event operations) → Bool → Managers → Prop}
    (hg : s.game? g = none) (hE : E .erasedGame) :
    wp (machine d) E (Action.game (.isFinished g)) Q s := by
  rw [wp_game]
  intro c
  have hfind : (GameOp.tick c s).games.find? (·.uuid = g) = none := hg
  simpa only [GameOp.exec, GameOp.readGame, hfind, ensures_error] using hE

theorem ensures_currentQuestionIndex (hE : E .undefinedArithmetic) (now : ℕ) :
    Ensures E (fun _ => True) (gm.currentQuestionIndex now) := by
  unfold Game.currentQuestionIndex
  split_ifs
  · exact hE
  · trivial

theorem ensures_getCurrentQuestion (gm : Game) (hE : E .undefinedArithmetic)
    (hE' : E .questionIndex) (now : ℕ) :
    Ensures E (fun _ => True) (gm.getCurrentQuestion now) := by
  refine ensures_bind (ensures_currentQuestionIndex hE now) fun index => ?_
  cases gm.questions[index.toNat]? with
  | none => exact hE'
  | some question => trivial

theorem ensures_checkAnswer (gm : Game) (hE : E .undefinedArithmetic) (now : ℕ)
    (answerIndex questionIndex : UInt32) :
    Ensures E (fun _ => True) (gm.checkAnswer now answerIndex questionIndex) := by
  refine ensures_bind (ensures_currentQuestionIndex hE now) fun index => ?_
  dsimp only
  split_ifs <;> trivial

variable (hg : s.game? g = some gm)

include hg

theorem wp_getCurrentQuestion {Q : List (Event operations) → UInt32 × Question → Managers → Prop}
    (hE : E .undefinedArithmetic) (hE' : E .questionIndex)
    (h : ∀ question now, Q [event (.game (.getCurrentQuestion g)) question] question
      (s.setClock now)) :
    wp (machine true) E (Action.game (.getCurrentQuestion g)) Q s := by
  rw [wp_game]
  intro c
  have hfind : (GameOp.tick c s).games.find? (·.uuid = g) = some gm := hg
  simp only [GameOp.exec, GameOp.readGame, hfind, ensures_map]
  have hquestion := ensures_getCurrentQuestion gm hE hE' (GameOp.tick c s).clock
  cases hx : gm.getCurrentQuestion (GameOp.tick c s).clock with
  | error e =>
      rw [hx] at hquestion
      exact hquestion
  | ok question => exact h question _

theorem wp_checkAnswer {answerIndex questionIndex : UInt32}
    {Q : List (Event operations) → Result (UInt32 × UInt32) → Managers → Prop}
    (hE : E .undefinedArithmetic)
    (h : ∀ r now, Q [event (.game (.checkAnswer g answerIndex questionIndex)) r] r
      (s.setClock now)) :
    wp (machine true) E (Action.game (.checkAnswer g answerIndex questionIndex)) Q s := by
  rw [wp_game]
  intro c
  have hfind : (GameOp.tick c s).games.find? (·.uuid = g) = some gm := hg
  simp only [GameOp.exec, GameOp.readGame, hfind, ensures_map]
  have hcheck := ensures_checkAnswer gm hE (GameOp.tick c s).clock answerIndex questionIndex
  cases hx : gm.checkAnswer (GameOp.tick c s).clock answerIndex questionIndex with
  | error e =>
      rw [hx] at hcheck
      exact hcheck
  | ok r => exact h r _

theorem wp_sleepUntilReleased {time : UInt32} {Q : List (Event operations) → Unit → Managers → Prop}
    (h : ∀ now, Q [event (.game (.sleepUntilReleased g time)) ()] () (s.setClock now)) :
    wp (machine true) E (Action.game (.sleepUntilReleased g time)) Q s := by
  rw [wp_game]
  intro c
  have hfind : s.games.find? (·.uuid = g) = some gm := hg
  simp only [GameOp.exec, GameOp.readGame, hfind, Except.map, ensures_ok]
  exact h _

theorem wp_recordAnswer {user : LoggedUser} {answerIndex questionIndex answerTime : UInt32}
    {Q : List (Event operations) → UInt32 → Managers → Prop}
    (hE : gm.players[user]? = none → E .playerNotFound) (hE' : E .questionIndex)
    (h : ∀ answer gm', gm.recordAnswer user answerIndex questionIndex answerTime =
      .ok (answer, gm') →
      Q [event (.game (.recordAnswer g user answerIndex questionIndex answerTime)) answer] answer
        (s.setGame g gm')) :
    wp (machine true) E
      (Action.game (.recordAnswer g user answerIndex questionIndex answerTime)) Q s := by
  rw [wp_game]
  intro c
  have hfind : s.games.find? (·.uuid = g) = some gm := hg
  simp only [GameOp.exec, GameOp.writeGame, hfind, ensures_map]
  cases hx : gm.recordAnswer user answerIndex questionIndex answerTime with
  | ok out => exact h out.1 out.2 hx
  | error e =>
      unfold Game.recordAnswer at hx
      split at hx
      · next hnone =>
          cases hx
          exact hE hnone
      · split_ifs at hx
        · split at hx <;> cases hx
          exact hE'
        · cases hx
          exact hE'

end Using

theorem ensures_mapM {α β : Type} {f : α → Except Fault β} {xs : List α}
    (h : ∀ x ∈ xs, Ensures E (fun _ => True) (f x)) : Ensures E (fun _ => True) (xs.mapM f) := by
  induction xs with
  | nil => trivial
  | cons x rest ih =>
      rw [List.mapM_cons]
      refine ensures_bind (h x List.mem_cons_self) fun _ => ?_
      exact ensures_bind (ih fun y hy => h y (List.mem_cons_of_mem _ hy)) fun _ => trivial

namespace GameRequestHandler

variable {P : Platform} {g : String} {user : LoggedUser} {request : RequestInfo}

theorem getQuestion_moves : Moves s (.player g user) (getQuestion g user) := by
  unfold Moves getQuestion
  rw [wp_bind]
  cases hg : s.game? g with
  | none => exact wp_isFinished_none hg ⟨g, user, rfl, hg⟩
  | some gm =>
      refine wp_isFinished hg fun now hnow => ?_
      split_ifs
      · exact .stay rfl rfl (by simp [Op.Silent])
      · rw [wp_bind]
        refine wp_getCurrentQuestion (s := s.setClock now) hg trivial trivial fun question k => ?_
        exact .stay rfl rfl (by simp [Op.Silent])

theorem submitAnswer_moves : Moves s (.player g user) (submitAnswer P g user request) := by
  unfold Moves submitAnswer
  rw [wp_bind]
  refine wp_deserialize (ensures_submitAnswerRequest trivial _) fun r => ?_
  cases r with
  | error e => exact .stay rfl rfl (by simp)
  | ok request =>
      simp only [wp_bind]
      cases hg : s.game? g with
      | none => exact wp_isFinished_none hg ⟨g, user, rfl, hg⟩
      | some gm =>
          refine wp_isFinished hg fun now hnow => ?_
          split_ifs
          · exact .stay rfl rfl (by simp [Op.Silent])
          · unfold TriviaServer.submitAnswer
            simp only [wp_bind]
            refine wp_checkAnswer (s := s.setClock now) hg trivial fun r k => ?_
            cases r with
            | error e => exact .stay rfl rfl (by simp [Op.Silent])
            | ok times =>
                simp only [wp_bind]
                refine wp_sleepUntilReleased (s := s.setClock k) hg fun k' => ?_
                refine wp_recordAnswer (s := s.setClock k') hg
                  (fun hnone => ⟨g, user, gm, hg, hnone, .inl rfl⟩) trivial fun answer gm' hx => ?_
                refine .answered hg hx rfl rfl (by simp [Op.Silent]) ⟨times, ?_⟩
                simp

/-- The results name the players of the game. -/
theorem ensures_playerResult {usersMap : Std.TreeMap LoggedUser GameData}
    {onlinePlayers : List LoggedUser} {player : Player} (hE : E .undefinedArithmetic)
    (h : (⟨player.username⟩ : LoggedUser) ∈ usersMap.keys) :
    Ensures E (fun _ => True) (playerResult usersMap onlinePlayers player) := by
  have hmem := Std.TreeMap.mem_keys.mp h
  rw [Std.TreeMap.mem_iff_isSome_getElem?] at hmem
  unfold playerResult
  cases hdata : usersMap[(⟨player.username⟩ : LoggedUser)]? with
  | none =>
      rw [hdata] at hmem
      cases hmem
  | some data =>
      refine ensures_bind (x := data.getAverageAnswerTime) ?_ fun _ => trivial
      unfold GameData.getAverageAnswerTime
      split_ifs
      · exact hE
      · trivial
      · exact hE

theorem getGameResults_moves : Moves s (.player g user) (getGameResults g user) := by
  unfold Moves getGameResults
  rw [wp_bind]
  cases hg : s.game? g with
  | none => exact wp_isFinished_none hg ⟨g, user, rfl, hg⟩
  | some gm =>
      refine wp_isFinished hg fun now hnow => ?_
      split_ifs
      · exact .stay rfl rfl (by simp [Op.Silent])
      · simp only [wp_bind]
        refine wp_getPlayersResults (s := s.setClock now) hg ?_
        refine wp_getOnlinePlayers (s := s.setClock now) hg ?_
        refine wp_transformLoggedUsersToPlayers fun t players ht hnames => ?_
        cases players with
        | error e => exact .stay rfl rfl (by simp [ht, Op.Silent])
        | ok players =>
            simp only [wp_bind]
            refine wp_deserialize (ensures_mapM fun player hp => ?_) fun results => ?_
            · exact ensures_playerResult trivial (hnames players rfl player hp)
            · cases hdata : gm.players[user]? with
              | none =>
                  rw [wp_throw]
                  exact ⟨g, user, gm, hg, hdata, .inl rfl⟩
              | some data => exact .stay rfl rfl (by simp [ht, Op.Silent])

/-- The name may already be logged out. -/
theorem leaveGame_moves (loggedUsers : List LoggedUser) (t₁ : List (Event operations))
    (ht₁ : Silent t₁) :
    wp (machine true) (Blame s (.player g user)) (leaveGame g user)
      (fun t r s' => Move s (t₁ ++ t) s' (.player g user) r.handler.seat)
      { s with loggedUsers } := by
  unfold leaveGame
  simp only [wp_bind]
  cases hg : s.game? g with
  | none => exact wp_isFinished_none (s := { s with loggedUsers }) hg ⟨g, user, rfl, hg⟩
  | some gm =>
      refine wp_isFinished (s := { s with loggedUsers }) hg fun now hnow => ?_
      refine wp_departure (s := { s with loggedUsers, clock := now }) hg
        (fun hnone _ => ⟨g, user, gm, hg, hnone, .inl rfl⟩) trivial
        fun k₁ k₂ k₃ players db t r hd ht => ?_
      cases r with
      | some e =>
          refine .unbooked (hd.leaves hg rfl hnow ht
            (t₁ ++ [event (.game (.isFinished g)) (gm.isFinished now)]) []
            (by simp) (by simp [ht₁, Op.Silent]) (by simp) (by simp) rfl depart_clock) ?_
            depart_rooms
          intro hmem
          cases hd.result_none rfl hmem
      | none =>
          simp only [wp_bind]
          refine wp_removePlayerFromRoom (fun hnone => ?_)
            fun t₂ room s' ht₂ hread₂ hroom hs' hrooms => ?_
          · rw [depart_rooms] at hnone
            exact ⟨g, user, rfl, hnone⟩
          · rw [depart_rooms] at hroom
            refine .quit hroom (hd.leaves hg rfl hnow ht
              (t₁ ++ [event (.game (.isFinished g)) (gm.isFinished now)]) t₂
              (by simp) (by simp [ht₁, Op.Silent]) ht₂ hread₂
              (by rw [hs']) (by rw [hs']; exact depart_clock)) fun uuid' => ?_
            rw [hrooms uuid', depart_rooms]

theorem handleRequest_moves : Moves s (.player g user) (handleRequest P g user request) := by
  have hnotRelevant : Moves s (.player g user)
      (pure (notRelevant.toRequestResult (.game g user))) := .stay rfl rfl (by simp)
  unfold handleRequest
  split_ifs
  · exact hnotRelevant
  · split
    · exact leaveGame_moves s.loggedUsers [] (by simp)
    · exact getQuestion_moves
    · exact submitAnswer_moves
    · exact getGameResults_moves
    · unfold Moves leaveGameAndExit LoginManager.logout
      rw [wp_bind, wp_login]
      exact leaveGame_moves _ [_] (by simp [Op.Silent])
    · exact hnotRelevant

end GameRequestHandler

/-! ## All handlers -/

/-- Every request moves the seat of its handler. -/
theorem Handler.handleRequest_moves {P : Platform} (hs : Keyed s) (h : Handler)
    (request : RequestInfo) : Moves s h.seat (h.handleRequest P request) := by
  cases h with
  | login => exact (LoginRequestHandler.handleRequest_stays trivial request).moves
  | verification tries email code username =>
      exact (VerificationRequestHandler.handleRequest_stays trivial tries email code username
        request).moves
  | menu user => exact MenuRequestHandler.handleRequest_moves hs
  | roomMember roomUuid roomName user => exact RoomMemberRequestHandler.handleRequest_moves
  | roomAdmin room user => exact RoomAdminRequestHandler.handleRequest_moves hs
  | game g user => exact GameRequestHandler.handleRequest_moves

end TriviaServer
