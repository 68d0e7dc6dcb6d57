import TriviaServer.Verification.Authority

/-! # What rooms and games keep

A step of a run changes a room or a game in one of a few ways, and by a handler that is entitled
to it. So much of a room and of a game stays as it is for as long as the room or game exists,
although a room may be erased under somebody who has just entered it. -/

namespace TriviaServer

open Interaction
open Program (Only)

variable {P : Platform} {d : Bool}

/-! ## Only a player that found nobody erases a room -/

/-- The last thing that the connection of a step did was to look who is in a room, and nobody
was. -/
def FoundEmpty (cfg : ServerConfig) (l : Service.Label ℕ RequestInfo Bool) (uuid : String) :
    Prop :=
  ∃ c, l = .perform c ∧ follow (fun _ o => some o) none c cfg.trace =
    some (.called ⟨.room (.getAllUsersAt uuid), ([] : List LoggedUser)⟩)

/-- The discipline of those who erase rooms. A connection stands at what it observed last. -/
def looks : Discipline operations Session RequestInfo RequestResult (Option ServerObservation) where
  initial := none
  observe _ o := some o
  allowed last
    | .room (.eraseRoom uuid) =>
        last = some (.called ⟨.room (.getAllUsersAt uuid), ([] : List LoggedUser)⟩)
    | _ => True
  assumed _ _ := True
  mayFinish _ _ _ _ := True

/-- A program that erases no room but one in which it has just found nobody. -/
def ErasesEmpty {α : Type} (p : Action α) : Prop :=
  ∀ last, wp looks.machine (fun _ => False) p (fun _ _ _ => True) last

section ErasesEmpty

variable {α β : Type} {p : Action α}

theorem erasesEmpty_pure (a : α) : ErasesEmpty (pure a : Action α) := fun _ => trivial

theorem ErasesEmpty.bind (hp : ErasesEmpty p) {f : α → Action β} (hf : ∀ a, ErasesEmpty (f a)) :
    ErasesEmpty (p >>= f) := by
  intro last
  rw [wp_bind]
  exact wp_imp (hp last) fun _ a last' _ => hf a last'

theorem Op.Alone.allowed {o : Op} (ho : o.Alone) (last : Option ServerObservation) :
    looks.allowed last o := by
  cases o with
  | room o =>
      cases o with
      | eraseRoom => exact ho.elim
      | _ => trivial
  | _ => trivial

theorem erasesEmpty_of_alone (hp : p.Only Op.Alone) : ErasesEmpty p := by
  induction p with
  | pure a => exact erasesEmpty_pure a
  | perform o next ih =>
      intro last
      refine ⟨fun _ hf => hf (hp.1.allowed last), ?_⟩
      rintro r _ ⟨-, rfl⟩
      exact ih r (hp.2 r) _

theorem RoomManager.erasesEmpty_removePlayerFromRoom (roomUUID : String) (user : LoggedUser) :
    ErasesEmpty (removePlayerFromRoom roomUUID user) := by
  intro last
  refine ⟨fun _ hf => hf trivial, ?_⟩
  rintro _ _ ⟨-, rfl⟩
  refine ⟨fun _ hf => hf trivial, ?_⟩
  rintro users _ ⟨-, rfl⟩
  cases (users : List LoggedUser) with
  | nil => exact ⟨fun _ hf => hf rfl, fun _ _ _ => trivial⟩
  | cons => trivial

end ErasesEmpty

theorem alone_logout (username : String) : (LoginManager.logout username).Only Op.Alone :=
  ⟨trivial, fun _ => trivial⟩

namespace GameRequestHandler

variable (game : String) (user : LoggedUser)

theorem erasesEmpty_leaveGame : ErasesEmpty (leaveGame game user) := by
  have hremove := (GameManager.leaving_removePlayerFromGame (g := game) user).mono
    fun _ => Op.Leaving.alone
  have hfinished : (Action.game (.isFinished game)).Only Op.Alone :=
    Program.only_call (S := operations) trivial
  apply (erasesEmpty_of_alone hfinished).bind
  intro _
  apply (erasesEmpty_of_alone hremove).bind
  intro submitResult
  cases submitResult with
  | some e => exact erasesEmpty_pure _
  | none =>
      exact (RoomManager.erasesEmpty_removePlayerFromRoom game user).bind
        fun _ => erasesEmpty_pure _

theorem erasesEmpty_handleRequest (request : RequestInfo) :
    ErasesEmpty (handleRequest P game user request) := by
  unfold handleRequest
  split_ifs
  · exact erasesEmpty_pure _
  · split
    · exact erasesEmpty_leaveGame game user
    · exact erasesEmpty_of_alone ((played_getQuestion game user).mono fun _ => Op.Played.alone)
    · exact erasesEmpty_of_alone
        ((played_submitAnswer game user request).mono fun _ => Op.Played.alone)
    · exact erasesEmpty_of_alone ((played_getGameResults game user).mono fun _ => Op.Played.alone)
    · exact (erasesEmpty_of_alone (alone_logout user.username)).bind
        fun _ => erasesEmpty_leaveGame game user
    · exact erasesEmpty_pure _

end GameRequestHandler

theorem Handler.erasesEmpty_handleRequest (h : Handler) (request : RequestInfo) :
    ErasesEmpty (h.handleRequest P request) := by
  cases h with
  | login =>
      exact erasesEmpty_of_alone ((LoginRequestHandler.mayCall_handleRequest request).mono
        fun _ => alone_of_mayCall (by simp))
  | verification tries email code username =>
      exact erasesEmpty_of_alone ((VerificationRequestHandler.mayCall_handleRequest tries email
        code username request).mono fun _ => alone_of_mayCall (by simp))
  | menu user =>
      exact erasesEmpty_of_alone ((MenuRequestHandler.mayCall_handleRequest user request).mono
        fun _ => alone_of_mayCall (by simp))
  | roomMember roomUuid roomName user =>
      have hcalls := RoomMemberRequestHandler.mayCall_handleRequest (P := P) roomUuid roomName user
        request
      exact erasesEmpty_of_alone (hcalls.mono fun _ => alone_of_mayCall (by simp))
  | roomAdmin room user =>
      exact erasesEmpty_of_alone ((RoomAdminRequestHandler.administers_handleRequest room user
        request).mono fun _ => Op.Administers.alone)
  | game game user => exact GameRequestHandler.erasesEmpty_handleRequest game user request

theorem handleClient_looks (P : Platform) :
    looks.ObeyedBy (handleClient P) (fun _ _ => True) fun _ => True where
  start := trivial
  serve session request _ _ _ :=
    wp_imp (session.handler.erasesEmpty_handleRequest request _) fun _ a _ _ =>
      ⟨trivial, fun sent => by
        cases (handleClient P).next request a sent <;> trivial⟩

/-- Whoever is about to erase a room as a player has just looked into it. -/
theorem InterleavedRun.foundEmpty {cfg : ServerConfig} (hrun : InterleavedRun P d cfg) {c : ℕ}
    {session : Session} {request : RequestInfo} {uuid : String}
    {next : Unit → Action RequestResult}
    (hc : cfg.clients c = .busy session request (.perform (.room (.eraseRoom uuid)) next)) :
    FoundEmpty cfg (.perform c) uuid := by
  obtain ⟨database, hrun⟩ := hrun
  have hkeeps := (handleClient_looks P).reachable (I := fun _ _ => True)
    (fun _ _ _ _ _ _ _ _ => trivial) (fun _ _ _ _ _ _ _ _ _ _ _ _ _ => ⟨trivial, trivial⟩)
    (fun _ _ _ _ _ _ _ _ _ => trivial) hrun ⟨trivial, fun c => rfl⟩
  exact ⟨c, rfl, (hkeeps.2 c).allowed hc⟩

/-! ## Rooms -/

theorem InterleavedRun.extend {cfg cfg' : ServerConfig} (hrun : InterleavedRun P d cfg)
    {K : ServerConfig → Service.Label ℕ RequestInfo Bool → Prop}
    (hlater : Service.Reachable (handleClient P) (machine d) K cfg cfg') :
    InterleavedRun P d cfg' := by
  obtain ⟨database, hrun⟩ := hrun
  exact ⟨database, hrun.trans (hlater.mono fun _ _ _ => trivial)⟩

/-- What a later room has in common with an earlier one of the same uuid. -/
structure Room.Later (room room' : Room) : Prop where
  metadata : { room'.metadata with isActive := room.metadata.isActive } = room.metadata
  isActive : room.metadata.isActive = true → room'.metadata.isActive = true

theorem Room.Later.refl (room : Room) : room.Later room := ⟨rfl, id⟩

theorem Room.Later.trans {room₁ room₂ room₃ : Room} (h₁ : room₁.Later room₂)
    (h₂ : room₂.Later room₃) : room₁.Later room₃ where
  metadata := by
    rw [← h₁.metadata, ← h₂.metadata]
  isActive hactive := h₂.isActive (h₁.isActive hactive)

namespace RoomChange

variable {foundEmpty : Prop} {uuid : String} {h : Handler} {room room' : Room}

theorem later (hchange : RoomChange foundEmpty uuid h (some room) (some room')) :
    room.Later room' := by
  cases hchange with
  | joined | left | played => exact ⟨rfl, id⟩
  | started => exact ⟨rfl, fun _ => rfl⟩

/-- Nobody but a user itself takes it off the list. -/
theorem stays (hchange : RoomChange foundEmpty uuid h (some room) (some room'))
    {user : LoggedUser} (hother : ¬ h.InGame uuid user) (huser : user ∈ room.users) :
    user ∈ room'.users := by
  cases hchange with
  | joined => exact List.mem_append_left _ huser
  | @left roomName leaver =>
      refine List.mem_filter.mpr ⟨huser, decide_eq_true ?_⟩
      rintro rfl
      exact hother (.inr ⟨roomName, rfl⟩)
  | started => exact huser
  | @played leaver =>
      refine List.mem_filter.mpr ⟨huser, decide_eq_true ?_⟩
      rintro rfl
      exact hother (.inl rfl)

end RoomChange

/-- What happens to a room from some moment of a run on. -/
structure RoomHistory (P : Platform) (d : Bool) (cfg : ServerConfig) (uuid : String) : Prop where
  /-- A step leaves it as it is, or is a change that the connection may make. -/
  step : ∀ l cfg', Service.Step (handleClient P) (machine d) cfg l cfg' →
    cfg'.shared.rooms[uuid]? = cfg.shared.rooms[uuid]? ∨ ∃ h, ActsAs cfg l h ∧
      RoomChange (FoundEmpty cfg l uuid) uuid h cfg.shared.rooms[uuid]? cfg'.shared.rooms[uuid]?
  /-- As long as it exists, its settings stay and it only becomes active. -/
  later : ∀ cfg' room room',
    Service.Reachable (handleClient P) (machine d)
      (fun cfg _ => cfg.shared.rooms[uuid]? ≠ none) cfg cfg' →
    cfg.shared.rooms[uuid]? = some room → cfg'.shared.rooms[uuid]? = some room' →
    room.Later room'
  /-- As long as it exists, a user stays in it that makes no step as a member or player. -/
  stays : ∀ cfg' user room room',
    Service.Reachable (handleClient P) (machine d)
      (fun cfg l => cfg.shared.rooms[uuid]? ≠ none ∧ ∀ h, ActsAs cfg l h → ¬ h.InGame uuid user)
      cfg cfg' →
    cfg.shared.rooms[uuid]? = some room → cfg'.shared.rooms[uuid]? = some room' →
    user ∈ room.users → user ∈ room'.users

theorem rooms_step {cfg cfg' : ServerConfig} {l : Service.Label ℕ RequestInfo Bool}
    (hrun : InterleavedRun P d cfg)
    (hstep : Service.Step (handleClient P) (machine d) cfg l cfg') (uuid : String) :
    cfg'.shared.rooms[uuid]? = cfg.shared.rooms[uuid]? ∨ ∃ h, ActsAs cfg l h ∧
      RoomChange (FoundEmpty cfg l uuid) uuid h cfg.shared.rooms[uuid]?
        cfg'.shared.rooms[uuid]? := by
  cases hstep with
  | @perform c session request o next r s' hc hs =>
      have hfound : o = .room (.eraseRoom uuid) → FoundEmpty cfg (.perform c) uuid := by
        rintro rfl
        exact hrun.foundEmpty hc
      refine (roomChange_of_step (hrun.mayCall hc) hs hfound).imp_right fun hchange => ?_
      exact ⟨session.handler, ⟨c, session, request, _, rfl, hc, rfl⟩, hchange⟩
  | _ => exact .inl rfl

/-- What each change of a room keeps is kept for as long as the room exists. -/
theorem rooms_along {cfg cfg' : ServerConfig} (hrun : InterleavedRun P d cfg) {uuid : String}
    {K : ServerConfig → Service.Label ℕ RequestInfo Bool → Prop} {R : Room → Room → Prop}
    (hrefl : ∀ room, R room room) (htrans : ∀ {a b c}, R a b → R b c → R a c)
    (hchange : ∀ {cfg l h room room'}, K cfg l → ActsAs cfg l h →
      RoomChange (FoundEmpty cfg l uuid) uuid h (some room) (some room') → R room room')
    (hlater : Service.Reachable (handleClient P) (machine d)
      (fun cfg l => cfg.shared.rooms[uuid]? ≠ none ∧ K cfg l) cfg cfg')
    {room room' : Room} (hroom : cfg.shared.rooms[uuid]? = some room)
    (hroom' : cfg'.shared.rooms[uuid]? = some room') : R room room' := by
  induction hlater generalizing room' with
  | refl =>
      cases hroom.symm.trans hroom'
      exact hrefl room
  | @tail middle last hmiddle hstep ih =>
      obtain ⟨l, ⟨hexists, hk⟩, hstep⟩ := hstep
      obtain ⟨room₁, hroom₁⟩ := Option.ne_none_iff_exists'.mp hexists
      rcases rooms_step (hrun.extend hmiddle) hstep uuid with hsame | ⟨h, hacts, hmade⟩
      · exact ih (hsame ▸ hroom')
      · rw [hroom₁, hroom'] at hmade
        exact htrans (ih hroom₁) (hchange hk hacts hmade)

theorem rooms_change {cfg : ServerConfig} (hrun : InterleavedRun P d cfg) (uuid : String) :
    RoomHistory P d cfg uuid where
  step _ _ hstep := rooms_step hrun hstep uuid
  later _ _ _ hlater hroom hroom' :=
    rooms_along hrun (K := fun _ _ => True) (R := Room.Later) Room.Later.refl Room.Later.trans
      (fun _ _ => RoomChange.later) (hlater.mono fun _ _ hk => ⟨hk, trivial⟩) hroom hroom'
  stays _ user _ _ hlater hroom hroom' :=
    rooms_along hrun (R := fun room room' => user ∈ room.users → user ∈ room'.users)
      (fun _ => id) (fun h₁ h₂ huser => h₂ (h₁ huser))
      (fun hk hacts hmade => hmade.stays (hk _ hacts)) hlater hroom hroom'

/-- `bob` is in the game with `ann`, and both leave it. `bob` finds nobody in the room, `ann`
enters it again, and then `bob` is about to erase it. -/
def erasedUnderAnn : List ServerPlay :=
  gameBegun ++ calls 0 [usual, usual] ++
  [.finish 0 true, .receive 1 ⟨.getRoomStateRequest, []⟩] ++ calls 1 (List.replicate 6 usual) ++
  [.finish 1 true, .receive 0 ⟨.leaveGameRequest, []⟩] ++ calls 0 (List.replicate 14 usual) ++
  [.finish 0 true, .receive 1 ⟨.leaveGameRequest, []⟩] ++ calls 1 (List.replicate 15 usual) ++
  [.receive 0 (lobbyRequest .joinRoomRequest 5)] ++ calls 0 [usual, usual, usual]

theorem rooms_change_erased : ∃ (cfg cfg' : ServerConfig) (room : Room),
    cfg.shared.rooms["room"]? = some room ∧ room.users = [⟨"ann"⟩] ∧
    Service.Step (handleClient lobbyPlatform) (machine true) cfg (.perform 1) cfg' ∧
    cfg'.shared.rooms["room"]? = none ∧ RoomHistory lobbyPlatform true cfg "room" := by
  have hrun : ((replayCall erasedUnderAnn 1 usual).any fun pair =>
      (pair.1.shared.rooms["room"]?.any fun room => room.users = [⟨"ann"⟩]) &&
      pair.2.shared.rooms["room"]?.isNone) = true := by
    decide +kernel
  obtain ⟨⟨cfg, cfg'⟩, hreplay, hcheck⟩ := (Option.any_eq_true _ _).mp hrun
  simp only [Bool.and_eq_true, Option.any_eq_true, decide_eq_true_eq,
    Option.isNone_iff_eq_none] at hcheck
  obtain ⟨⟨room, hroom, husers⟩, hgone⟩ := hcheck
  obtain ⟨hcfg, hstep⟩ := replayCall_step hreplay
  exact ⟨cfg, cfg', room, hroom, husers, hstep, hgone, rooms_change hcfg "room"⟩

/-! ## Games -/

/-- What a later state of a game has in common with an earlier one. -/
structure Game.Later (gm gm' : Game) : Prop where
  uuid : gm'.uuid = gm.uuid
  questions : gm'.questions = gm.questions
  timePerQuestion : gm'.timePerQuestion = gm.timePerQuestion
  gameStartTime : gm'.gameStartTime = gm.gameStartTime
  players : ∀ user : LoggedUser, gm'.players[user]? = none ↔ gm.players[user]? = none
  online : gm'.onlinePlayers.Sublist gm.onlinePlayers

namespace Game.Later

variable {gm gm' gm₁ gm₂ gm₃ : Game}

theorem refl (gm : Game) : gm.Later gm := ⟨rfl, rfl, rfl, rfl, fun _ => .rfl, .refl _⟩

theorem trans (h₁ : gm₁.Later gm₂) (h₂ : gm₂.Later gm₃) : gm₁.Later gm₃ where
  uuid := h₂.uuid.trans h₁.uuid
  questions := h₂.questions.trans h₁.questions
  timePerQuestion := h₂.timePerQuestion.trans h₁.timePerQuestion
  gameStartTime := h₂.gameStartTime.trans h₁.gameStartTime
  players user := (h₂.players user).trans (h₁.players user)
  online := h₂.online.trans h₁.online

theorem setPlayer {user : LoggedUser} {data : GameData} (hdata : gm.players[user]? = some data)
    (data' : GameData) : gm.Later (gm.setPlayers (gm.players.insert user data')) where
  uuid := rfl
  questions := rfl
  timePerQuestion := rfl
  gameStartTime := rfl
  players user' := by
    rw [Game.setPlayers_players, Std.TreeMap.getElem?_insert]
    split_ifs with huser
    · obtain rfl := Std.LawfulEqCmp.eq_of_compare huser
      simp [hdata]
    · rfl
  online := .refl _

end Game.Later

theorem GameChange.later {g : String} {h : Handler} {gm gm' : Game}
    (hchange : GameChange g h gm gm') : gm.Later gm' := by
  cases hchange with
  | punished _ hf | submitted _ hf =>
      obtain ⟨data, hdata, rfl⟩ := updatePlayer_ok (r := ()) (congrArg (Except.map ((), ·)) hf)
      exact .setPlayer hdata _
  | left => exact ⟨rfl, rfl, rfl, rfl, fun _ => .rfl, List.filter_sublist⟩
  | answered hf =>
      obtain ⟨data, question, hdata, -, -, -, rfl⟩ := Game.recordAnswer_ok hf
      exact .setPlayer hdata _

/-- A change of the list keeps what is to be kept of a game that is the only one of its uuid
before and after. -/
theorem GamesChange.later {now : ℕ} {h : Handler} {games games' : List Game} {g : String}
    {gm gm' : Game} (hchange : GamesChange now h games games')
    (hgm : games.filter (·.uuid = g) = [gm]) (hgm' : games'.filter (·.uuid = g) = [gm']) :
    gm.Later gm' := by
  have honly : ∀ gm₀ ∈ games, gm₀.uuid = g → gm₀ = gm := by
    intro gm₀ hmem huuid
    have hfilter : gm₀ ∈ games.filter (·.uuid = g) :=
      List.mem_filter.mpr ⟨hmem, decide_eq_true huuid⟩
    rw [hgm] at hfilter
    exact List.mem_singleton.mp hfilter
  have hmem' : gm' ∈ games'.filter (·.uuid = g) := hgm' ▸ List.mem_singleton_self gm'
  obtain ⟨hmem', huuid'⟩ := List.mem_filter.mp hmem'
  replace huuid' : gm'.uuid = g := of_decide_eq_true huuid'
  cases hchange with
  | @created user _ questions players uuid timePerQuestion hplayable =>
      rcases List.mem_append.mp hmem' with hold | hnew
      · rw [honly gm' hold huuid']
        exact .refl gm
      · rw [List.mem_singleton.mp hnew] at huuid'
        rw [List.filter_append, hgm, List.filter_singleton] at hgm'
        simp [huuid'] at hgm'
  | @changed _ g₁ _ gm₁ gm₁' hfind hchange =>
      have hfound : gm₁.uuid = g₁ := by simpa using List.find?_some hfind
      obtain ⟨gm₀, hmem₀, heq⟩ := List.mem_map.mp hmem'
      split_ifs at heq with h₀
      · subst heq
        have hg₁ : gm₁.uuid = g := hchange.later.uuid.symm.trans huuid'
        rw [← honly gm₁ (List.mem_of_find?_eq_some hfind) hg₁]
        exact hchange.later
      · subst heq
        rw [honly gm₀ hmem₀ huuid']
        exact .refl gm
  | erased _ =>
      rw [honly gm' (List.mem_of_mem_eraseP hmem') huuid']
      exact .refl gm

/-- The game of a uuid is there, and no other one of the same uuid. -/
def Managers.OneGame (s : Managers) (g : String) : Prop :=
  (s.games.filter (·.uuid = g)).length = 1

instance (s : Managers) (g : String) : Decidable (s.OneGame g) :=
  inferInstanceAs (Decidable (_ = _))

/-- What happens to the games from some moment of a run on. -/
structure GamesHistory (P : Platform) (d : Bool) (cfg : ServerConfig) : Prop where
  /-- A step leaves them as they are, or is a change that the connection may make. -/
  step : ∀ l cfg', Service.Step (handleClient P) (machine d) cfg l cfg' →
    cfg'.shared.games = cfg.shared.games ∨ ∃ h, ActsAs cfg l h ∧
      GamesChange cfg'.shared.clock h cfg.shared.games cfg'.shared.games
  /-- As long as a game is the only one of its uuid, its questions, times and players stay, and
  nobody comes back to it. -/
  later : ∀ cfg' g gm gm',
    Service.Reachable (handleClient P) (machine d) (fun cfg _ => cfg.shared.OneGame g)
      cfg cfg' →
    cfg.shared.games.filter (·.uuid = g) = [gm] →
    cfg'.shared.games.filter (·.uuid = g) = [gm'] → gm.Later gm'

theorem games_step {cfg cfg' : ServerConfig} {l : Service.Label ℕ RequestInfo Bool}
    (hrun : InterleavedRun P d cfg)
    (hstep : Service.Step (handleClient P) (machine d) cfg l cfg') :
    cfg'.shared.games = cfg.shared.games ∨ ∃ h, ActsAs cfg l h ∧
      GamesChange cfg'.shared.clock h cfg.shared.games cfg'.shared.games := by
  rcases shared_change hrun hstep with hsame | ⟨h, o, r, hacts, ho, hs⟩
  · exact .inl (by rw [hsame])
  · exact (gamesChange_of_step ho hs).imp_right fun hchange => ⟨h, hacts, hchange⟩

theorem games_change {cfg : ServerConfig} (hrun : InterleavedRun P d cfg) :
    GamesHistory P d cfg where
  step _ _ := games_step hrun
  later cfg' g gm gm' hlater hgm hgm' := by
    induction hlater generalizing gm' with
    | refl =>
        cases hgm.symm.trans hgm'
        exact .refl gm
    | @tail middle last hmiddle hstep ih =>
        obtain ⟨l, hone, hstep⟩ := hstep
        obtain ⟨gm₁, hgm₁⟩ := List.length_eq_one_iff.mp hone
        rcases games_step (hrun.extend hmiddle) hstep with hsame | ⟨h, -, hchange⟩
        · exact ih gm' (hsame ▸ hgm')
        · exact (ih gm₁ hgm₁).trans (hchange.later hgm₁ hgm')

/-- `ann` notices the game that she has started and leaves it. -/
def annLeavesGame : List ServerPlay :=
  calls 0 [usual] ++ [.finish 0 true, .receive 0 ⟨.leaveGameRequest, []⟩] ++
  calls 0 (List.replicate 14 usual)

theorem replay_annLeavesGame : ∃ (cfg cfg' : ServerConfig) (gm gm' : Game),
    InterleavedRun lobbyPlatform true cfg ∧
    Service.Reachable (handleClient lobbyPlatform) (machine true)
      (fun cfg _ => cfg.shared.OneGame "room") cfg cfg' ∧
    cfg.shared.games.filter (·.uuid = "room") = [gm] ∧
    cfg'.shared.games.filter (·.uuid = "room") = [gm'] ∧
    gm.onlinePlayers = [⟨"ann"⟩, ⟨"bob"⟩] ∧ gm'.onlinePlayers = [⟨"bob"⟩] := by
  have hrun : ((replayServer lobbyPlatform true sampleDatabase
      (gameBegun ++ calls 0 [usual])).any fun cfg =>
      (Service.replayIf (handleClient lobbyPlatform) interpreter (Op.admits true)
        (fun play _ => play.label)
        (fun cfg _ => cfg.shared.OneGame "room") annLeavesGame cfg).any fun cfg' =>
      (cfg.shared.games.filter (·.uuid = "room")).map Game.onlinePlayers =
        [[⟨"ann"⟩, ⟨"bob"⟩]] &&
      (cfg'.shared.games.filter (·.uuid = "room")).map Game.onlinePlayers =
        [[⟨"bob"⟩]]) = true := by
    decide +kernel
  obtain ⟨cfg, hreplay, hcheck⟩ := (Option.any_eq_true _ _).mp hrun
  obtain ⟨cfg', hreplay', hcheck⟩ := (Option.any_eq_true _ _).mp hcheck
  simp only [Bool.and_eq_true, decide_eq_true_eq, List.map_eq_singleton_iff] at hcheck
  obtain ⟨⟨gm, hgm, honline⟩, gm', hgm', honline'⟩ := hcheck
  exact ⟨cfg, cfg', gm, gm', interleavedRun_of_replay hreplay,
    Service.reachable_of_replayIf (fun _ _ hone => of_decide_eq_true hone) hreplay', hgm, hgm',
    honline, honline'⟩

theorem games_change_left : ∃ (cfg cfg' : ServerConfig) (gm gm' : Game),
    cfg.shared.games.filter (·.uuid = "room") = [gm] ∧
    cfg'.shared.games.filter (·.uuid = "room") = [gm'] ∧
    gm'.onlinePlayers ≠ gm.onlinePlayers ∧ gm.Later gm' ∧
    GamesHistory lobbyPlatform true cfg := by
  obtain ⟨cfg, cfg', gm, gm', hrun, hlater, hgm, hgm', honline, honline'⟩ := replay_annLeavesGame
  refine ⟨cfg, cfg', gm, gm', hgm, hgm', ?_, ?_, games_change hrun⟩
  · rw [honline, honline']
    decide
  · exact (games_change hrun).later cfg' "room" gm gm' hlater hgm hgm'

end TriviaServer
