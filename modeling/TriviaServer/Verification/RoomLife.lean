import TriviaServer.Verification.Lobby
import TriviaServer.Verification.Replays

/-! # Rooms and their games live and die together

The member who leaves an active room as the last one online takes the game along and leaves the
room behind. While nobody leaves so, every active room has its one game. -/

namespace TriviaServer

open Interaction

variable {P : Platform} {s s' : Managers} {t : List (Event operations)}

/-- Somebody else is online in the game of the active room, or the last user listed leaves it
through the game. -/
def leavesInOrder (s : Managers) : Seat → Bool
  | .member uuid user => (s.rooms[uuid]?).all fun room => !room.metadata.isActive ||
      (s.game? uuid).all fun gm => gm.onlinePlayers.any (· ≠ user)
  | .player g user => (s.game? g).all fun gm => gm.onlinePlayers.any (· ≠ user) ||
      (s.rooms[g]?).all fun room => room.users = [user]
  | _ => true

/-- The condition on the requests of a run. -/
def LeaveInOrder (cfg : ServerConfig) : AtomicServerLabel → Prop
  | .connect _ => True
  | .request c request _ _ => (seatOf cfg c).leaves request.requestId = true →
      leavesInOrder cfg.shared (seatOf cfg c) = true

instance {cfg : ServerConfig} : DecidablePred (LeaveInOrder cfg)
  | .connect _ => .isTrue trivial
  | .request .. => inferInstanceAs (Decidable (_ → _))

/-- Every active room has a game. -/
def HaveGames (s : Managers) : Prop :=
  ∀ (uuid : String) room, s.rooms[uuid]? = some room → room.metadata.isActive = true →
    ∃ gm, s.game? uuid = some gm

namespace HaveGames

variable {uuid : String} {room : Option Room}

theorem change (h : HaveGames s) (hrooms : RoomChanges s s' uuid room)
    (hothers : ∀ g, g ≠ uuid → s'.game? g = s.game? g)
    (hgame : ∀ r, room = some r → r.metadata.isActive = true → ∃ gm, s'.game? uuid = some gm) :
    HaveGames s' := by
  intro uuid' r hr hactive
  rw [hrooms uuid'] at hr
  split_ifs at hr with huuid
  · rw [huuid]
    exact hgame r hr hactive
  · rw [hothers uuid' huuid]
    exact h uuid' r hr hactive

/-- A room that keeps its metadata keeps its game. -/
theorem same (h : HaveGames s) {r : Room} (hr : s.rooms[uuid]? = some r)
    (hrooms : RoomChanges s s' uuid room) (hgames : s'.games = s.games)
    (hmetadata : ∀ r', room = some r' → r'.metadata = r.metadata) : HaveGames s' := by
  refine h.change hrooms (fun g _ => game?_of_games hgames g) fun r' hr' hactive => ?_
  rw [game?_of_games hgames]
  exact h uuid r hr (hmetadata r' hr' ▸ hactive)

/-- Every move but that of the last one online keeps the games of the active rooms. -/
theorem move (h : HaveGames s) {x y : Seat} (hm : Move s t s' x y)
    (hnamed : ∀ user, x.user = some user → user.username ∈ s.names)
    (horder : ∀ uuid user room, x = .member uuid user ∨ x = .player uuid user →
      s.rooms[uuid]? = some room → y = .outside → leavesInOrder s x = true) : HaveGames s' := by
  have hkept : s'.rooms = s.rooms → s'.games = s.games → HaveGames s' := by
    intro hrooms hgames uuid r hr hactive
    rw [game?_of_games hgames]
    exact h uuid r (hrooms ▸ hr) hactive
  cases hm with
  | stay hrooms hgames _ => exact hkept hrooms hgames
  | dismissed _ hrooms hgames _ => exact hkept hrooms hgames
  | entered _ _ _ hrooms hgames _ => exact hkept hrooms hgames
  | created _ _ _ hactive _ hrooms hgames _ =>
      refine h.change hrooms (fun g _ => game?_of_games hgames g) fun r' hr' hactive' => ?_
      cases hr'
      exact nomatch hactive.symm.trans hactive'
  | @joined uuid user r r' hr hadd hrooms hgames _ =>
      refine h.same hr hrooms hgames fun r₁ hr₁ => ?_
      obtain ⟨-, -, rfl⟩ := Room.addUser_ok hadd
      cases hr₁
      rfl
  | @left uuid user r hr _ hrooms hgames _ =>
      refine h.same hr hrooms hgames fun r₁ hr₁ => ?_
      cases hr₁
      rfl
  | @deserted uuid user r gm hr hactive hl hrooms =>
      refine h.change hrooms (fun g hne => hl.others hne) fun _ _ _ => ?_
      have hothers := horder uuid user r (.inl rfl) hr rfl
      simp only [leavesInOrder, hr, Option.all_some, hactive, Bool.not_true, Bool.false_or,
        hl.found, List.any_eq_true, decide_eq_true_eq] at hothers
      obtain ⟨players, hgm, -⟩ := hl.present hothers
      exact ⟨_, hgm⟩
  | closed hr hrooms hgames _ =>
      exact h.change hrooms (fun g _ => game?_of_games hgames g) nofun
  | @started uuid user r questions time now hr hrooms hgames _ _ =>
      have hfind : ∀ g, s'.game? g = (s.game? g).or (if uuid = g then
          some (Game.new questions r.users uuid time now) else none) := by
        intro g
        simp only [Managers.game?, hgames, List.find?_append, List.find?_singleton,
          decide_eq_true_eq]
        rfl
      refine h.change hrooms (fun g hne => ?_) fun _ _ _ => ?_
      · rw [hfind, if_neg (Ne.symm hne), Option.or_none]
      · rw [hfind, if_pos rfl]
        cases s.game? uuid with
        | none => exact ⟨_, rfl⟩
        | some gm => exact ⟨gm, rfl⟩
  | @answered g user gm gm' answerIndex questionIndex answerTime answer hg hanswer hrooms hgames
      _ _ =>
      obtain ⟨data, -, hself, hothers, -⟩ := game?_answered hg hanswer hgames
      exact h.change (Lobby.roomChanges_same hrooms rfl) hothers fun _ _ _ => ⟨_, hself⟩
  | @quit g user gm r hr hl hrooms =>
      refine h.change hrooms (fun g hne => hl.others hne) fun r' hr' _ => ?_
      have horder := horder g user r (.inr rfl) hr rfl
      simp only [leavesInOrder, hr, Option.all_some, hl.found, Bool.or_eq_true, List.any_eq_true,
        decide_eq_true_eq] at horder
      rcases horder with hothers | hlast
      · obtain ⟨players, hgm, -⟩ := hl.present hothers
        exact ⟨_, hgm⟩
      · simp [Room.removeUser, hlast] at hr'
  | @unbooked g user gm hl hno _ => exact absurd (hnamed user rfl) hno

end HaveGames

/-- Every room has a user, every active room its one game, and no request looks for a game that
is not there. -/
structure RoomsAndGames (P : Platform) (cfg : ServerConfig) : Prop where
  users_ne : ∀ (uuid : String) room, cfg.shared.rooms[uuid]? = some room → room.users ≠ []
  one_game : ∀ (uuid : String) room, cfg.shared.rooms[uuid]? = some room →
    room.metadata.isActive = true → cfg.shared.games.countP (·.uuid = room.metadata.uuid) = 1
  found : ∀ c session request, cfg.clients c = .idle session →
    ¬ Faults (machine true) ((handleClient P).serve session request) cfg.shared .gameNotFound

theorem roomsAndGames_of_leaveInOrder {cfg : ServerConfig} (hrun : AtomicRun P LeaveInOrder cfg) :
    RoomsAndGames P cfg := by
  obtain ⟨database, hrun⟩ := hrun
  have hfit := seatsFit_of_run hrun
  have hgames : HaveGames cfg.shared := by
    refine seats_along (I := fun cfg => HaveGames cfg.shared) hrun ?_
      fun cfg l cfg' hfit hfit' h hk hstep => ?_
    · intro uuid room hroom
      exact nomatch Std.TreeMap.getElem?_emptyc.symm.trans hroom
    · cases hstep with
      | connected hshared _ _ => exact hshared ▸ h
      | @moved c session request sent t r _ hc hx hmove _ _ =>
          refine h.move hmove (hfit.named c) fun uuid user room hseat hroom hout => hk ?_
          rw [seatOf_idle hc] at hseat ⊢
          exact leaves_of_outside hx hseat hroom hout
  refine ⟨fun uuid room hroom => ?_, fun uuid room hroom hactive => ?_, ?_⟩
  · have hfits := hfit.lobby.rooms uuid
    rw [hroom] at hfits
    cases hactive : room.metadata.isActive with
    | false =>
        obtain ⟨c, user, hc⟩ := hfits.has_admin room rfl hactive
        obtain ⟨r, hr, -, hmem⟩ := hfits.admin c user hc
        cases hr
        exact List.ne_nil_of_mem hmem
    | true =>
        obtain ⟨gm, hgm⟩ := hgames uuid room hroom hactive
        have hplays := hfit.lobby.games uuid gm hgm
        rw [hroom] at hplays
        obtain ⟨r, hr, -, hlisted⟩ := hplays.room
        cases hr
        obtain ⟨p, hp⟩ := List.exists_mem_of_ne_nil _ hplays.online_ne
        exact List.ne_nil_of_mem (hlisted p hp)
  · obtain ⟨gm, hgm⟩ := hgames uuid room hroom hactive
    rw [hfit.lobby.keyed uuid room hroom]
    exact countP_uuid hfit.lobby.nodup hgm
  · intro c session request hc hfaults
    obtain ⟨uuid, room, hroom, hactive, hnone⟩ :=
      hfaults.of_wp (Handler.handleRequest_moves hfit.lobby.keyed session.handler request)
    obtain ⟨gm, hgm⟩ := hgames uuid room hroom hactive
    exact nomatch hnone.symm.trans hgm

/-- `bob` joins, `ann` starts the game, and both leave it through the game. -/
theorem roomsAndGames_bothQuit : ∃ cfg, replayAtomic lobbyPlatform sampleDatabase
    (pairInGame ++ [wholeRequest 1 ⟨.getRoomStateRequest, []⟩,
      wholeRequest 0 ⟨.leaveGameRequest, []⟩, wholeRequest 1 ⟨.leaveGameRequest, []⟩])
    (fun cfg l => decide (LeaveInOrder cfg l)) = some cfg ∧ RoomsAndGames lobbyPlatform cfg ∧
    cfg.shared.games = [] := by
  have hrun : ((replayAtomic lobbyPlatform sampleDatabase
    (pairInGame ++ [wholeRequest 1 ⟨.getRoomStateRequest, []⟩,
      wholeRequest 0 ⟨.leaveGameRequest, []⟩, wholeRequest 1 ⟨.leaveGameRequest, []⟩])
    fun cfg l => decide (LeaveInOrder cfg l)).any fun cfg => cfg.shared.games.isEmpty) = true := by
    decide +kernel
  obtain ⟨cfg, hcfg, hgames⟩ := (Option.any_eq_true _ _).mp hrun
  exact ⟨cfg, hcfg, roomsAndGames_of_leaveInOrder
    (atomicRun_of_replay hcfg fun _ _ h => of_decide_eq_true h), List.isEmpty_iff.mp hgames⟩

/-- `ann` leaves the game before `bob` has noticed its start, and `bob` leaves the room: the game
is gone, and the active room is there without users. -/
theorem not_roomsAndGames_lastMember : ∃ cfg, AtomicRun lobbyPlatform FreshRooms cfg ∧
    ¬ RoomsAndGames lobbyPlatform cfg := by
  have hrun : ((replayAtomic lobbyPlatform sampleDatabase
    (pairInGame ++ [wholeRequest 0 ⟨.leaveGameRequest, []⟩,
      wholeRequest 1 ⟨.leaveRoomRequest, []⟩]) fun cfg l => decide (FreshRooms cfg l)).any
      fun cfg => (cfg.shared.rooms["room"]?).any fun room => room.users.isEmpty) = true := by
    decide +kernel
  obtain ⟨cfg, hcfg, hroom⟩ := (Option.any_eq_true _ _).mp hrun
  obtain ⟨room, hroom, hempty⟩ := (Option.any_eq_true _ _).mp hroom
  exact ⟨cfg, atomicRun_of_replay hcfg fun _ _ h => of_decide_eq_true h, fun h =>
    h.users_ne "room" room hroom (List.isEmpty_iff.mp hempty)⟩

end TriviaServer
