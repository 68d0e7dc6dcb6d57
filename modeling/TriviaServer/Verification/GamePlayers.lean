import TriviaServer.Verification.Lobby
import TriviaServer.Verification.Replays

/-! # Everybody with a handler of a game plays it

The poll of a room member moves it into the room's game even when it is not one of the players
there, and its leave looks it up among them. While only players do so, no look-up fails and no
handler outlives its game. -/

namespace TriviaServer

open Interaction
open Program (Returns)

variable {P : Platform} {s s' : Managers} {t : List (Event operations)} {g : String}
  {user : LoggedUser}

/-- A poll from a member finds it online in the room's game, if there is one; a leave finds it
among the players, or the game finished. -/
def knownToGame (s : Managers) (x : Seat) (id : RequestId) : Bool :=
  match x with
  | .member uuid user => (s.game? uuid).all fun gm =>
      if id = .getRoomStateRequest then user ∈ gm.onlinePlayers
      else !x.leaves id || user ∈ gm.players || gm.isFinished s.clock
  | _ => true

/-- The condition on the requests of a run. -/
def KnownToGame (cfg : ServerConfig) : AtomicServerLabel → Prop
  | .connect _ => True
  | .request c request _ _ => knownToGame cfg.shared (seatOf cfg c) request.requestId = true

instance {cfg : ServerConfig} : DecidablePred (KnownToGame cfg)
  | .connect _ => .isTrue trivial
  | .request .. => inferInstanceAs (Decidable (_ = true))

/-! ## Requests of a room member -/

namespace RoomMemberRequestHandler

variable {roomUuid roomName : String} {request : RequestInfo}

/-- Only the poll of a member ends in a game. -/
theorem not_player (hid : request.requestId ≠ .getRoomStateRequest) :
    (handleRequest roomUuid roomName user request).Returns fun r =>
      ∀ g user, r.handler.seat ≠ .player g user := by
  have hleave : (leaveRoom roomUuid roomName user).Returns fun r =>
      ∀ g user, r.handler.seat ≠ .player g user := by
    refine Returns.bind fun state => ?_
    cases state with
    | none => exact nofun
    | some state =>
        dsimp only
        split_ifs
        · exact Returns.bind fun _ => Returns.bind fun _ => nofun
        · exact Returns.bind fun _ => nofun
  unfold handleRequest
  dsimp only
  split_ifs
  · exact nofun
  · split
    · exact hleave
    · next heq => exact absurd heq hid
    · exact Returns.bind fun _ => hleave
    · exact nofun

/-- A request that neither polls nor leaves does nothing. -/
theorem handleRequest_pure (hid : request.requestId ≠ .getRoomStateRequest)
    (hleaves : (Seat.member roomUuid user).leaves request.requestId = false) :
    ∃ r, handleRequest roomUuid roomName user request = pure r := by
  unfold handleRequest
  dsimp only
  split_ifs
  · exact ⟨_, rfl⟩
  · split
    · next heq => simp [Seat.leaves, heq] at hleaves
    · next heq => exact absurd heq hid
    · next heq => simp [Seat.leaves, heq] at hleaves
    · exact ⟨_, rfl⟩

end RoomMemberRequestHandler

/-- A member that enters a game has polled. -/
theorem poll_of_player {h : Handler} {request : RequestInfo} {r : RequestResult} {uuid : String}
    (hx : Exec (machine true) (h.handleRequest P request) s t r s')
    (hseat : h.seat = .member uuid user) (hr : r.handler.seat = .player g user) :
    request.requestId = .getRoomStateRequest := by
  by_contra hid
  cases h with
  | login | verification | menu | roomAdmin | game => cases hseat
  | roomMember => exact hx.of_returns (RoomMemberRequestHandler.not_player hid) g user hr

/-- A member that is not found among the players has left. -/
theorem leaves_of_playerNotFound {h : Handler} {request : RequestInfo} {e : Fault} {uuid : String}
    (hx : Faults (machine true) (h.handleRequest P request) s e)
    (hseat : h.seat = .member uuid user) (hid : request.requestId ≠ .getRoomStateRequest) :
    h.seat.leaves request.requestId = true := by
  refine Bool.eq_true_of_not_eq_false fun hleaves => ?_
  cases h with
  | login | verification | menu | roomAdmin | game => cases hseat
  | roomMember roomUuid roomName user' =>
      have hpure : ∃ r,
          (Handler.roomMember roomUuid roomName user').handleRequest P request = pure r :=
        RoomMemberRequestHandler.handleRequest_pure hid hleaves
      obtain ⟨r, hr⟩ := hpure
      rw [hr] at hx
      cases hx

/-! ## Players in their games -/

/-- The game is there, and the user is a player of it and online. -/
def InGame (s : Managers) (g : String) (user : LoggedUser) : Prop :=
  ∃ gm, s.game? g = some gm ∧ gm.players[user]? ≠ none ∧ user ∈ gm.onlinePlayers

namespace InGame

theorem of_game? (h : InGame s g user) (heq : s'.game? g = s.game? g) : InGame s' g user := by
  obtain ⟨gm, hg, hplays⟩ := h
  exact ⟨gm, heq.trans hg, hplays⟩

/-- Somebody else leaves. -/
theorem leaves {g' : String} {user' : LoggedUser} {gm : Game} (h : InGame s g user)
    (hl : Leaves s g' user' gm t s') (hne : g = g' → user ≠ user') : InGame s' g user := by
  by_cases hg : g = g'
  · subst hg
    obtain ⟨gm', hg, hkey, honline⟩ := h
    cases hl.found.symm.trans hg
    obtain ⟨players, hgame, hkeys⟩ := hl.present ⟨user, honline, hne rfl⟩
    exact ⟨_, hgame, fun hnone => hkey ((hkeys user).mp hnone),
      List.mem_filter.mpr ⟨honline, decide_eq_true (hne rfl)⟩⟩
  · exact h.of_game? (hl.others hg)

theorem answered {g' : String} {user' : LoggedUser} {gm gm' : Game}
    {answerIndex questionIndex answerTime answer : UInt32} (h : InGame s g user)
    (hg : s.game? g' = some gm)
    (hanswer : gm.recordAnswer user' answerIndex questionIndex answerTime = .ok (answer, gm'))
    (hgames : s'.games = (s.setGame g' gm').games) : InGame s' g user := by
  obtain ⟨data, -, hself, hother, -⟩ := game?_answered hg hanswer hgames
  by_cases heq : g = g'
  · subst heq
    obtain ⟨gm₀, hgm₀, hkey, honline⟩ := h
    cases hg.symm.trans hgm₀
    refine ⟨_, hself, fun hnone => hkey ?_, honline⟩
    rw [Game.setPlayers_players, Std.TreeMap.getElem?_insert] at hnone
    split_ifs at hnone
    exact hnone
  · exact h.of_game? (hother g heq)

end InGame

def PlayersInGame (s : Managers) (seats : ℕ → Seat) : Prop :=
  ∀ c g user, seats c = .player g user → InGame s g user

namespace PlayersInGame

variable {seats : ℕ → Seat} {c : ℕ} {x : Seat}

theorem update (hothers : ∀ c' g user, c' ≠ c → seats c' = .player g user → InGame s' g user)
    (hown : ∀ g user, x = .player g user → InGame s' g user) :
    PlayersInGame s' (Function.update seats c x) :=
  (Function.forall_update_iff seats fun _ y => ∀ g user, y = .player g user → InGame s' g user).mpr
    ⟨hown, fun c' hcc g user => hothers c' g user hcc⟩

/-- A member or a player leaves its game. -/
theorem leave {uuid : String} {user : LoggedUser} {gm : Game} (h : PlayersInGame s seats)
    (hd : Distinct seats) (hc : (seats c).At uuid user) (hl : Leaves s uuid user gm t s') :
    PlayersInGame s' (Function.update seats c .outside) := by
  refine update (fun c' g user' hcc hc' => (h c' g user' hc').leaves hl fun _ heq => hcc ?_) nofun
  exact hd c' c user (by rw [hc', heq]; rfl) hc.user_eq

/-- Every move keeps the players in their games, if only those online enter. -/
theorem move (h : PlayersInGame s seats) (hl : Lobby s seats) (hd : Distinct seats)
    (hnamed : ∀ user, (seats c).user = some user → user.username ∈ s.names)
    (hentered : ∀ uuid user gm, seats c = .member uuid user → x = .player uuid user →
      s.game? uuid = some gm → user ∈ gm.onlinePlayers)
    (hm : Move s t s' (seats c) x) : PlayersInGame s' (Function.update seats c x) := by
  generalize hc : seats c = y at hm
  have hothers : s'.games = s.games → ∀ c' g user, c' ≠ c → seats c' = .player g user →
      InGame s' g user := fun heq c' g user _ hc' =>
    (h c' g user hc').of_game? (game?_of_games heq g)
  cases hm with
  | stay _ heq _ =>
      exact update (hothers heq) fun g user hx =>
        (h c g user (hc.trans hx)).of_game? (game?_of_games heq g)
  | created _ _ _ _ _ _ heq _ => exact update (hothers heq) nofun
  | joined _ _ _ heq _ => exact update (hothers heq) nofun
  | dismissed _ _ heq _ => exact update (hothers heq) nofun
  | left _ _ _ heq _ => exact update (hothers heq) nofun
  | closed _ _ heq _ => exact update (hothers heq) nofun
  | deserted _ _ hleaves _ => exact h.leave hd (.inl hc) hleaves
  | quit _ hleaves _ => exact h.leave hd (.inr (.inr hc)) hleaves
  | @unbooked g user gm _ hno _ => exact absurd (hnamed user (by rw [hc]; rfl)) hno
  | @entered uuid user r gm _ _ hg _ heq _ =>
      refine update (hothers heq) fun g' user' hx => ?_
      cases hx
      have honline := hentered uuid user gm hc rfl hg
      exact ⟨gm, (game?_of_games heq uuid).trans hg, (hl.games uuid gm hg).players user honline,
        honline⟩
  | @started uuid user r questions time now hr _ heq _ _ =>
      obtain ⟨r₀, hr₀, hactive, hlisted⟩ := (hl.rooms uuid).admin c user hc
      cases hr.symm.trans hr₀
      have hnone := hl.no_game hr hactive
      have hpush : ∀ g, s'.game? g =
          if g = uuid then some (.new questions r.users uuid time now) else s.game? g :=
        fun g => game?_push hnone heq g
      refine update (fun c' g user' _ hc' => ?_) fun g user' hx => ?_
      · obtain ⟨gm, hgm, hplays⟩ := h c' g user' hc'
        have hne : g ≠ uuid := by
          rintro rfl
          exact nomatch hnone.symm.trans hgm
        exact ⟨gm, ((hpush g).trans (if_neg hne)).trans hgm, hplays⟩
      · cases hx
        refine ⟨_, (hpush uuid).trans (if_pos rfl), ?_, hlisted⟩
        rw [Game.new_players, if_pos hlisted]
        exact nofun
  | answered hg hanswer _ heq _ _ =>
      exact update (fun c' g user _ hc' => (h c' g user hc').answered hg hanswer heq)
        fun g user hx => (h c g user (hc.trans hx)).answered hg hanswer heq

end PlayersInGame

/-! ## Runs -/

/-- Every handler of a game finds the game, with its user among the players and online, and no
request that is known to its game looks up a player or a game that is not there. -/
structure GamesHavePlayers (P : Platform) (cfg : ServerConfig) : Prop where
  in_game : ∀ c g user, seatOf cfg c = .player g user → InGame cfg.shared g user
  found : ∀ c session request, cfg.clients c = .idle session →
    knownToGame cfg.shared session.handler.seat request.requestId = true →
      ∀ e ∈ [Fault.playerNotFound, .erasedGame],
        ¬ Faults (machine true) ((handleClient P).serve session request) cfg.shared e

theorem playersInGame_of_run {cfg : ServerConfig} {database : Database}
    (hrun : Service.AtomicReachable (handleClient P) (machine true) KnownToGame
      (ServerConfig.init database) cfg) : PlayersInGame cfg.shared (seatOf cfg) := by
  refine seats_along (I := fun cfg => PlayersInGame cfg.shared (seatOf cfg)) hrun
    (fun c g user hc => nomatch hc) fun cfg l cfg' hfit _ h hk hstep => ?_
  cases hstep with
  | connected hshared _ hseats =>
      rw [hshared, hseats]
      exact h
  | @moved c session request _ _ r _ hc hx hmove hseats _ =>
      rw [hseats]
      refine h.move hfit.lobby hfit.distinct (hfit.named c)
        (fun uuid user gm hseat hr hg => ?_) hmove
      have hid := poll_of_player hx (seatOf_idle hc ▸ hseat) hr
      have hknown : knownToGame cfg.shared (seatOf cfg c) request.requestId = true := hk
      simpa [knownToGame, hseat, hg, hid] using hknown

theorem gamesHavePlayers_of_knownToGame {cfg : ServerConfig} (hrun : AtomicRun P KnownToGame cfg) :
    GamesHavePlayers P cfg := by
  obtain ⟨database, hrun⟩ := hrun
  have hfit := seatsFit_of_run hrun
  have hplays := playersInGame_of_run hrun
  refine ⟨hplays, fun c session request hc hknown e he hfaults => ?_⟩
  have hblame := hfaults.of_wp
    (Handler.handleRequest_moves hfit.lobby.keyed session.handler request)
  have hin : ∀ g user, session.handler.seat = .player g user → InGame cfg.shared g user :=
    fun g user hseat => hplays c g user ((seatOf_idle hc).trans hseat)
  simp only [List.mem_cons, List.not_mem_nil, or_false] at he
  rcases he with rfl | rfl
  · obtain ⟨g, user, gm, hg, hkey, hseat | ⟨hseat, hrunning⟩⟩ := hblame
    · obtain ⟨gm', hg', hkey', -⟩ := hin g user hseat
      cases hg.symm.trans hg'
      exact hkey' hkey
    · by_cases hid : request.requestId = .getRoomStateRequest
      · have honline : user ∈ gm.onlinePlayers := by
          simpa [knownToGame, hseat, hg, hid] using hknown
        exact (hfit.lobby.games g gm hg).players user honline hkey
      · have hleaves := leaves_of_playerNotFound hfaults hseat hid
        rw [hseat] at hleaves
        have hout : user ∉ gm.players := by
          rw [Std.TreeMap.mem_iff_isSome_getElem?, hkey]
          exact nofun
        simp [knownToGame, hseat, hg, hid, hleaves, hout, hrunning] at hknown
  · obtain ⟨g, user, hseat, hnone⟩ := hblame
    obtain ⟨gm, hg, -⟩ := hin g user hseat
    exact nomatch hnone.symm.trans hg

/-- `bob` joins the room before the start and is moved into the game by his poll. -/
theorem gamesHavePlayers_poll : ∃ cfg, replayAtomic lobbyPlatform sampleDatabase
    (pairInGame ++ [wholeRequest 1 ⟨.getRoomStateRequest, []⟩])
    (fun cfg l => decide (KnownToGame cfg l)) = some cfg ∧ GamesHavePlayers lobbyPlatform cfg ∧
    seatOf cfg 1 = .player "room" ⟨"bob"⟩ := by
  have hrun : ((replayAtomic lobbyPlatform sampleDatabase
    (pairInGame ++ [wholeRequest 1 ⟨.getRoomStateRequest, []⟩])
    fun cfg l => decide (KnownToGame cfg l)).any fun cfg =>
      seatOf cfg 1 = .player "room" ⟨"bob"⟩) = true := by
    decide +kernel
  obtain ⟨cfg, hcfg, hseat⟩ := (Option.any_eq_true _ _).mp hrun
  exact ⟨cfg, hcfg, gamesHavePlayers_of_knownToGame
    (atomicRun_of_replay hcfg fun _ _ h => of_decide_eq_true h), of_decide_eq_true hseat⟩

/-- `bob` leaves the active room, joins it again and polls: he has a handler of the game, and is
not online in it. -/
theorem not_gamesHavePlayers_rejoined : ∃ cfg, AtomicRun lobbyPlatform FreshRooms cfg ∧
    ¬ GamesHavePlayers lobbyPlatform cfg := by
  have hrun : ((replayAtomic lobbyPlatform sampleDatabase
    (pairInGame ++ [wholeRequest 1 ⟨.leaveRoomRequest, []⟩,
      wholeRequest 1 (lobbyRequest .joinRoomRequest 5),
      wholeRequest 1 ⟨.getRoomStateRequest, []⟩]) fun cfg l => decide (FreshRooms cfg l)).any
      fun cfg => seatOf cfg 1 = .player "room" ⟨"bob"⟩ ∧
        (cfg.shared.game? "room").all fun gm => ⟨"bob"⟩ ∉ gm.onlinePlayers) = true := by
    decide +kernel
  obtain ⟨cfg, hcfg, hrejoined⟩ := (Option.any_eq_true _ _).mp hrun
  obtain ⟨hseat, honline⟩ := of_decide_eq_true hrejoined
  refine ⟨cfg, atomicRun_of_replay hcfg fun _ _ h => of_decide_eq_true h, fun h => ?_⟩
  obtain ⟨gm, hg, -, hin⟩ := h.in_game 1 "room" ⟨"bob"⟩ hseat
  rw [hg, Option.all_some] at honline
  exact of_decide_eq_true honline hin

end TriviaServer
