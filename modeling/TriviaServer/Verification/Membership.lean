import TriviaServer.Verification.Lobby
import TriviaServer.Verification.Replays

/-! # Room membership and handlers agree

While room uuids never repeat, a user is listed in a room exactly when one live connection has a
handler of that user for the room. -/

namespace TriviaServer

open Interaction

variable {P : Platform} {s s' : Managers} {t : List (Event operations)} {seats : ℕ → Seat} {c : ℕ}

/-! ## Everybody seated is listed -/

/-- Whoever has a seat at a room that is there is listed, and players are in active rooms. -/
structure PlacedAt (seats : ℕ → Seat) (uuid : String) (room : Option Room) : Prop where
  listed : ∀ c user r, (seats c).At uuid user → room = some r → user ∈ r.users
  player : ∀ c user, seats c = .player uuid user → ∃ r, room = some r ∧ r.metadata.isActive = true

namespace PlacedAt

variable {uuid : String} {room : Option Room} {x : Seat} {r r' : Room} {user : LoggedUser}

theorem other {seats' : ℕ → Seat} (h : PlacedAt seats uuid room)
    (hsame : SameAt seats seats' uuid) : PlacedAt seats' uuid room where
  listed c user r hat hr := h.listed c user r (hsame.at_iff.mp hat) hr
  player c user hc := h.player c user (hsame.player_iff.mp hc)

/-- The room is there after the move. -/
theorem present (hothers : ∀ c' user, c' ≠ c → (seats c').At uuid user → user ∈ r.users)
    (hown : ∀ user, x.At uuid user → user ∈ r.users)
    (hactive : ∀ user, x = .player uuid user ∨ (∃ c', seats c' = .player uuid user) →
      r.metadata.isActive = true) :
    PlacedAt (Function.update seats c x) uuid (some r) := by
  have hlisted : ∀ c' user, (Function.update seats c x c').At uuid user → user ∈ r.users :=
    (Function.forall_update_iff seats fun _ y => ∀ user, y.At uuid user → user ∈ r.users).mpr
      ⟨hown, fun c' hcc user => hothers c' user hcc⟩
  have hplays : ∀ c' user, Function.update seats c x c' = .player uuid user →
      r.metadata.isActive = true :=
    (Function.forall_update_iff seats fun _ y =>
      ∀ user, y = .player uuid user → r.metadata.isActive = true).mpr
      ⟨fun user hx => hactive user (.inl hx), fun c' _ user hc' => hactive user (.inr ⟨c', hc'⟩)⟩
  refine ⟨fun c' user r₀ hat hr => ?_, fun c' user hc' => ⟨r, rfl, hplays c' user hc'⟩⟩
  cases hr
  exact hlisted c' user hat

/-- The room is gone after the move. -/
theorem gone (hothers : ∀ c' user, c' ≠ c → seats c' ≠ .player uuid user)
    (hx : ∀ user, x ≠ .player uuid user) :
    PlacedAt (Function.update seats c x) uuid none := by
  have hnobody : ∀ c' user, Function.update seats c x c' ≠ .player uuid user :=
    (Function.forall_update_iff seats fun _ y => ∀ user, y ≠ .player uuid user).mpr
      ⟨hx, fun c' hcc user => hothers c' user hcc⟩
  exact ⟨nofun, fun c' user hc' => absurd hc' (hnobody c' user)⟩

theorem isActive (h : PlacedAt seats uuid (some r))
    (hc : ∃ c, seats c = .player uuid user) : r.metadata.isActive = true := by
  obtain ⟨c, hc⟩ := hc
  obtain ⟨r₀, hr₀, hactive⟩ := h.player c user hc
  cases hr₀
  exact hactive

/-- A room whose users are as before, or more. -/
theorem kept (h : PlacedAt seats uuid (some r)) (husers : ∀ user ∈ r.users, user ∈ r'.users)
    (hactive : r.metadata.isActive = true → r'.metadata.isActive = true)
    (hown : ∀ user, x.At uuid user → user ∈ r'.users)
    (hplayer : ∀ user, x = .player uuid user → r'.metadata.isActive = true) :
    PlacedAt (Function.update seats c x) uuid (some r') :=
  present (fun c' user _ hat => husers user (h.listed c' user r hat rfl)) hown
    fun user hc => hc.elim (hplayer user) fun hc => hactive (h.isActive hc)

/-- A member or player is taken from the list. -/
theorem removed (h : PlacedAt seats uuid (some r)) (hd : Distinct seats)
    (hc : (seats c).At uuid user) :
    PlacedAt (Function.update seats c .outside) uuid (some (r.removeUser user)) := by
  refine present (fun c' user' hcc hat => ?_) (fun _ hat => absurd hat Seat.not_at_outside)
    fun user' hc' => ?_
  · refine List.mem_filter.mpr ⟨h.listed c' user' r hat rfl, decide_eq_true fun heq => hcc ?_⟩
    exact hd c' c user (heq ▸ hat.user_eq) hc.user_eq
  · rcases hc' with hc' | hc'
    · cases hc'
    · exact h.isActive hc'

/-- The last user listed takes the room along. -/
theorem emptied (h : PlacedAt seats uuid (some r)) (hd : Distinct seats)
    (hc : (seats c).At uuid user) (hlast : ∀ p ∈ r.users, p = user) :
    PlacedAt (Function.update seats c .outside) uuid none := by
  refine gone (fun c' user' hcc hc' => hcc ?_) nofun
  have hat : (seats c').At uuid user' := .inr (.inr hc')
  have heq := hlast user' (h.listed c' user' r hat rfl)
  exact hd c' c user (heq ▸ hat.user_eq) hc.user_eq

end PlacedAt

/-- Every seat is at a room that lists its user, or at none that is there. -/
def Placed (s : Managers) (seats : ℕ → Seat) : Prop :=
  ∀ uuid : String, PlacedAt seats uuid s.rooms[uuid]?

namespace Placed

variable {x : Seat} {uuid : String} {room : Option Room}

theorem change (h : Placed s seats) (hrooms : RoomChanges s s' uuid room)
    (hold : ∀ uuid' user, (seats c).At uuid' user → uuid' = uuid)
    (hnew : ∀ uuid' user, x.At uuid' user → uuid' = uuid)
    (hplaced : PlacedAt (Function.update seats c x) uuid room) :
    Placed s' (Function.update seats c x) := by
  intro uuid'
  rw [hrooms uuid']
  split_ifs with huuid
  · exact huuid ▸ hplaced
  · exact (h uuid').other (.update (fun user hat => huuid (hold uuid' user hat))
      fun user hat => huuid (hnew uuid' user hat))

open Lobby in
theorem move (h : Placed s seats) (hl : Lobby s seats) (hd : Distinct seats)
    (hnamed : ∀ user, (seats c).user = some user → user.username ∈ s.names)
    (hfresh : ∀ uuid ∈ uuidsOf t, ∀ c user, ¬ (seats c).At uuid user)
    (hm : Move s t s' (seats c) x) : Placed s' (Function.update seats c x) := by
  generalize hc : seats c = y at hm
  cases hm with
  | stay hrooms _ _ =>
      rw [← hc, Function.update_eq_self]
      exact fun uuid => hrooms ▸ h uuid
  | @created uuid user r hnone husers _ _ _ hrooms _ ht =>
      subst ht
      have hnobody : ∀ c user, ¬ (seats c).At uuid user := hfresh uuid (by simp [uuidsOf, event])
      refine h.change hrooms (hc ▸ only_outside) (only_at (.inr (.inl rfl)))
        (.present (fun c' user' _ hat => absurd hat (hnobody c' user')) (fun user' hat => ?_)
          fun user' hc' => ?_)
      · obtain ⟨-, rfl⟩ := hat.unique (.inr (.inl rfl))
        rw [husers]
        exact List.mem_cons_self
      · rcases hc' with hc' | ⟨c', hc'⟩
        · cases hc'
        · exact absurd (.inr (.inr hc')) (hnobody c' user')
  | @joined uuid user r r' hr hadd hrooms _ _ =>
      have hplaced := h uuid
      rw [hr] at hplaced
      obtain ⟨-, -, rfl⟩ := Room.addUser_ok hadd
      refine h.change hrooms (hc ▸ only_outside) (only_at (.inl rfl))
        (hplaced.kept (fun user' => List.mem_append_left _) id (fun user' hat => ?_)
          fun _ heq => by cases heq)
      obtain ⟨-, rfl⟩ := hat.unique (.inl rfl)
      exact List.mem_append_right _ List.mem_cons_self
  | @dismissed uuid user hnone hrooms _ _ =>
      refine h.change (roomChanges_same hrooms hnone) (hc ▸ only_at (.inl rfl)) only_outside
        (.gone (fun c' user' _ hc' => ?_) fun _ heq => by cases heq)
      obtain ⟨r, hr, -⟩ := (h uuid).player c' user' hc'
      cases hnone.symm.trans hr
  | @left uuid user r hr _ hrooms _ _ =>
      have hplaced := h uuid
      rw [hr] at hplaced
      exact h.change hrooms (hc ▸ only_at (.inl rfl)) only_outside (hplaced.removed hd (.inl hc))
  | @deserted uuid user r gm hr _ _ hrooms =>
      have hplaced := h uuid
      rw [hr] at hplaced
      exact h.change hrooms (hc ▸ only_at (.inl rfl)) only_outside (hplaced.removed hd (.inl hc))
  | @entered uuid user r gm hr hactive _ hrooms _ _ =>
      have hplaced := h uuid
      rw [hr] at hplaced
      refine h.change (roomChanges_same hrooms hr) (hc ▸ only_at (.inl rfl))
        (only_at (.inr (.inr rfl)))
        (hplaced.kept (fun _ => id) id (fun user' hat => ?_) fun _ _ => hactive)
      obtain ⟨-, rfl⟩ := hat.unique (.inr (.inr rfl))
      exact hplaced.listed c user' r (.inl hc) rfl
  | @closed uuid user r hr hrooms _ _ =>
      obtain ⟨r₀, hr₀, hactive, -⟩ := (hl.rooms uuid).admin c user hc
      refine h.change hrooms (hc ▸ only_at (.inr (.inl rfl))) only_outside
        (.gone (fun c' user' _ hc' => ?_) fun _ heq => by cases heq)
      obtain ⟨r₁, hr₁, hactive'⟩ := (h uuid).player c' user' hc'
      cases hr₀.symm.trans hr₁
      cases hactive.symm.trans hactive'
  | @started uuid user r questions time now hr hrooms _ _ _ =>
      have hplaced := h uuid
      rw [hr] at hplaced
      refine h.change hrooms (hc ▸ only_at (.inr (.inl rfl))) (only_at (.inr (.inr rfl)))
        (hplaced.kept (fun _ => id) (fun _ => rfl) (fun user' hat => ?_) fun _ _ => rfl)
      obtain ⟨-, rfl⟩ := hat.unique (.inr (.inr rfl))
      exact hplaced.listed c user' r (.inr (.inl hc)) rfl
  | @answered g user gm gm' answerIndex questionIndex answerTime answer _ _ hrooms _ _ _ =>
      rw [← hc, Function.update_eq_self]
      exact fun uuid => hrooms ▸ h uuid
  | @quit g user gm r hr _ hrooms =>
      have hplaced := h g
      rw [hr] at hplaced
      refine h.change hrooms (hc ▸ only_at (.inr (.inr rfl))) only_outside ?_
      split_ifs with hempty
      · refine hplaced.emptied hd (.inr (.inr hc)) fun p hp => ?_
        have hnil := List.filter_eq_nil_iff.mp (List.isEmpty_iff.mp hempty) p hp
        simpa using hnil
      · exact hplaced.removed hd (.inr (.inr hc))
  | @unbooked g user gm _ hno _ => exact absurd (hnamed user (by rw [hc]; rfl)) hno

end Placed

/-! ## The uuids in use -/

theorem generated_append (trace : ServerTrace) (c : ℕ) (o o' : ServerObservation)
    (ho : generated [(c, o)] = []) (ho' : generated [(c, o')] = []) :
    generated (trace ++ ((c, o) :: t.map fun e => (c, .called e)) ++ [(c, o')]) =
      generated trace ++ uuidsOf t := by
  have hcalls : generated (t.map fun e => (c, .called e)) = uuidsOf t := by
    unfold generated uuidsOf
    rw [List.filterMap_map]
    refine List.filterMap_congr fun ⟨o, r⟩ _ => ?_
    cases o with
    | room o => cases o <;> rfl
    | _ => rfl
  have hsplit : ∀ a b : ServerTrace, generated (a ++ b) = generated a ++ generated b :=
    fun a b => List.filterMap_append
  rw [← List.singleton_append (l := t.map _), hsplit, hsplit, hsplit, ho, ho', hcalls,
    List.nil_append, List.append_nil]

/-- A room or a seat that is new is one of a generated uuid, or a seat at a room that was there. -/
theorem Move.uuid_used {x y : Seat} {used : List String} (hm : Move s t s' x y)
    (hrooms : ∀ uuid : String, s.rooms[uuid]? ≠ none → uuid ∈ used)
    (hx : ∀ uuid user, x.At uuid user → uuid ∈ used) :
    (∀ uuid : String, s'.rooms[uuid]? ≠ none → uuid ∈ used ++ uuidsOf t) ∧
      ∀ uuid user, y.At uuid user → uuid ∈ used ++ uuidsOf t := by
  have hsame : s'.rooms = s.rooms → ∀ uuid : String, s'.rooms[uuid]? ≠ none →
      uuid ∈ used ++ uuidsOf t := fun heq uuid hne =>
    List.mem_append_left _ (hrooms uuid (heq ▸ hne))
  have hchange : ∀ {uuid : String} {room : Option Room}, RoomChanges s s' uuid room →
      uuid ∈ used ++ uuidsOf t → ∀ uuid' : String, s'.rooms[uuid']? ≠ none →
        uuid' ∈ used ++ uuidsOf t := by
    intro uuid room hchanges hused uuid' hne
    rw [hchanges uuid'] at hne
    split_ifs at hne with huuid
    · exact huuid ▸ hused
    · exact List.mem_append_left _ (hrooms uuid' hne)
  have hold : ∀ {uuid user}, x.At uuid user → uuid ∈ used ++ uuidsOf t := fun hat =>
    List.mem_append_left _ (hx _ _ hat)
  have hown : ∀ {uuid user}, y.At uuid user → uuid ∈ used ++ uuidsOf t → ∀ uuid' user',
      y.At uuid' user' → uuid' ∈ used ++ uuidsOf t := fun hat hused uuid' user' hat' =>
    (hat.unique hat').1 ▸ hused
  have hout : y = .outside → ∀ uuid user, y.At uuid user → uuid ∈ used ++ uuidsOf t :=
    fun heq uuid user hat => absurd (heq ▸ hat) Seat.not_at_outside
  cases hm with
  | stay heq _ _ => exact ⟨hsame heq, fun _ _ => hold⟩
  | @created uuid user r _ _ _ _ _ hchanges _ ht =>
      have hused : uuid ∈ used ++ uuidsOf t :=
        List.mem_append_right _ (by simp [ht, uuidsOf, event])
      exact ⟨hchange hchanges hused, hown (.inr (.inl rfl)) hused⟩
  | @joined uuid user r r' hr _ hchanges _ _ =>
      have hused := List.mem_append_left (uuidsOf t) (hrooms uuid (by rw [hr]; rintro ⟨⟩))
      exact ⟨hchange hchanges hused, hown (.inl rfl) hused⟩
  | dismissed _ heq _ _ => exact ⟨hsame heq, hout rfl⟩
  | left _ _ hchanges _ _ => exact ⟨hchange hchanges (hold (.inl rfl)), hout rfl⟩
  | deserted _ _ _ hchanges => exact ⟨hchange hchanges (hold (.inl rfl)), hout rfl⟩
  | entered _ _ _ heq _ _ => exact ⟨hsame heq, hown (.inr (.inr rfl)) (hold (.inl rfl))⟩
  | closed _ hchanges _ _ => exact ⟨hchange hchanges (hold (.inr (.inl rfl))), hout rfl⟩
  | started _ hchanges _ _ _ =>
      have hused := hold (.inr (.inl rfl))
      exact ⟨hchange hchanges hused, hown (.inr (.inr rfl)) hused⟩
  | answered _ _ heq _ _ _ => exact ⟨hsame heq, fun _ _ => hold⟩
  | quit _ _ hchanges => exact ⟨hchange hchanges (hold (.inr (.inr rfl))), hout rfl⟩
  | unbooked _ _ heq => exact ⟨hsame heq, hout rfl⟩

/-! ## Runs -/

/-- Every room that is there and every room of a handler got its uuid in the run. -/
structure UuidsUsed (cfg : ServerConfig) : Prop where
  rooms : ∀ uuid : String, cfg.shared.rooms[uuid]? ≠ none → uuid ∈ generated cfg.trace
  seats : ∀ c uuid user, (seatOf cfg c).At uuid user → uuid ∈ generated cfg.trace

/-- Nobody of this name is in a room or online in a game. -/
def Gone (s : Managers) (user : LoggedUser) : Prop :=
  (∀ (uuid : String) room, s.rooms[uuid]? = some room → user ∉ room.users) ∧
    ∀ gm ∈ s.games, user ∉ gm.onlinePlayers

/-- The user of a connection that has just ended is gone. -/
def EndedGone (cfg : ServerConfig) : Prop :=
  ∀ c session request r user,
    cfg.trace.getLast? = some (c, .finished session request r none) →
      session.handler.name = some user.username → Gone cfg.shared user

theorem Lobby.gone (h : Lobby s seats) {user : LoggedUser}
    (hnone : ∀ c uuid, ¬ (seats c).At uuid user) : Gone s user := by
  have hrooms : ∀ (uuid : String) room, s.rooms[uuid]? = some room → user ∉ room.users := by
    intro uuid room hroom huser
    obtain ⟨c, hc⟩ := (h.rooms uuid).seated room hroom user huser
    exact hnone c uuid hc
  refine ⟨hrooms, fun gm hgm huser => ?_⟩
  obtain ⟨room, hroom, -, hlisted⟩ := (h.games gm.uuid gm (mem_game? h.nodup hgm)).room
  exact hrooms gm.uuid room hroom (hlisted user huser)

section Runs

variable {cfg cfg' : ServerConfig} {l : AtomicServerLabel} {database : Database}
  {K : ServerConfig → AtomicServerLabel → Prop}

theorem UuidsUsed.step (h : UuidsUsed cfg) (hstep : SeatStep P cfg l cfg') : UuidsUsed cfg' := by
  cases hstep with
  | connected hshared htrace hseats =>
      refine ⟨?_, ?_⟩
      · rw [hshared, htrace]
        exact h.rooms
      · rw [hseats, htrace]
        exact h.seats
  | @moved c session request sent t r _ hc hx hmove hseats htrace =>
      obtain ⟨hrooms, hseat⟩ := hmove.uuid_used h.rooms (h.seats c)
      have hgenerated : generated cfg'.trace = generated cfg.trace ++ uuidsOf t :=
        htrace ▸ generated_append cfg.trace c _ _ rfl rfl
      refine ⟨fun uuid hne => hgenerated ▸ hrooms uuid hne, fun c' uuid user hat => ?_⟩
      rw [hgenerated]
      rw [hseats] at hat
      by_cases hcc : c' = c
      · subst hcc
        rw [Function.update_self] at hat
        exact hseat uuid user hat
      · rw [Function.update_of_ne hcc] at hat
        exact List.mem_append_left _ (h.seats c' uuid user hat)

theorem UuidsUsed.init (database : Database) : UuidsUsed (.init database) where
  rooms _ hne := absurd Std.TreeMap.getElem?_emptyc hne
  seats _ _ _ hat := absurd hat Seat.not_at_outside

theorem Placed.init (database : Database) :
    Placed (.init database) (seatOf (ServerConfig.init database)) := by
  refine fun uuid => ⟨fun c user r hat => absurd hat Seat.not_at_outside, fun c user hc => ?_⟩
  cases hc

theorem placed_of_run (hrun : Service.AtomicReachable (handleClient P) (machine true) FreshRooms
    (ServerConfig.init database) cfg) : Placed cfg.shared (seatOf cfg) := by
  refine (seats_along (I := fun cfg => UuidsUsed cfg ∧ Placed cfg.shared (seatOf cfg)) hrun
    ⟨.init database, .init database⟩
    fun cfg l cfg' hfit _ h hk hstep => ⟨h.1.step hstep, ?_⟩).2
  obtain ⟨hused, h⟩ := h
  cases hstep with
  | connected hshared _ hseats =>
      rw [hshared, hseats]
      exact h
  | @moved c _ _ _ _ _ _ _ _ hmove hseats _ =>
      rw [hseats]
      refine h.move hfit.lobby hfit.distinct (hfit.named c) (fun uuid huuid c' user hat => ?_) hmove
      exact hk uuid huuid (hused.seats c' uuid user hat)

theorem endedGone_of_run (hrun : Service.AtomicReachable (handleClient P) (machine true) K
    (ServerConfig.init database) cfg) : EndedGone cfg := by
  refine seats_along (I := EndedGone) hrun
    (fun c session request r user hlast => absurd hlast (Option.some_ne_none _).symm)
    fun cfg l cfg' hfit hfit' h _ hstep => ?_
  cases hstep with
  | connected hshared htrace _ =>
      unfold EndedGone
      rw [hshared, htrace]
      exact h
  | @moved c session request sent t r _ hc hx hmove hseats htrace =>
      intro c' session' request' r' user hlast hname
      rw [htrace, List.getLast?_concat] at hlast
      injection hlast with hlast
      injection hlast with hcc hlast
      injection hlast with hsession hrequest hr hnext
      subst hcc hsession hrequest hr
      have hexit : request.requestId = .exit := by
        by_contra hne
        cases sent <;> simp [handleClient, hne] at hnext
      have hout : r.handler.seat = .outside := hx.of_returns (exit_outside _ hexit)
      refine hfit'.lobby.gone fun c' uuid hat => ?_
      rw [hseats] at hat
      by_cases hcc : c' = c
      · subst hcc
        rw [Function.update_self, hout] at hat
        exact Seat.not_at_outside hat
      · rw [Function.update_of_ne hcc] at hat
        obtain ⟨session', hc', hname'⟩ := idle_of_user hat.user_eq
        exact hcc (hfit.one_handler c' c session' session user.username hc' hc hname' hname)

end Runs

/-- The rooms, the games and the handlers of the live connections agree. -/
structure MembershipAgrees (P : Platform) (cfg : ServerConfig) : Prop where
  nodup : ∀ (uuid : String) room, cfg.shared.rooms[uuid]? = some room → room.users.Nodup
  capacity : ∀ (uuid : String) room, cfg.shared.rooms[uuid]? = some room →
    room.users.length ≤ room.metadata.maxPlayers.toNat
  listed_iff : ∀ (uuid : String) room user, cfg.shared.rooms[uuid]? = some room →
    (user ∈ room.users ↔ ∃! c, (seatOf cfg c).At uuid user)
  one_room : ∀ (uuid uuid' : String) room room' user, cfg.shared.rooms[uuid]? = some room →
    cfg.shared.rooms[uuid']? = some room' → user ∈ room.users → user ∈ room'.users → uuid = uuid'
  has_room : ∀ c uuid user, seatOf cfg c = .admin uuid user ∨ seatOf cfg c = .player uuid user →
    ∃ room, cfg.shared.rooms[uuid]? = some room
  room_found : ∀ c session request, cfg.clients c = .idle session →
    ∀ e ∈ [Fault.emptyRoomState, .erasedRoom, .roomNotFound],
      ¬ Faults (machine true) ((handleClient P).serve session request) cfg.shared e
  online : ∀ gm ∈ cfg.shared.games, ∀ user ∈ gm.onlinePlayers,
    ∃ room, cfg.shared.rooms[gm.uuid]? = some room ∧ user ∈ room.users
  ended : EndedGone cfg

theorem membershipAgrees_of_freshRooms {cfg : ServerConfig} (hrun : AtomicRun P FreshRooms cfg) :
    MembershipAgrees P cfg := by
  obtain ⟨database, hrun⟩ := hrun
  have hfit := seatsFit_of_run hrun
  have hplaced := placed_of_run hrun
  have hroom : ∀ c uuid user,
      seatOf cfg c = .admin uuid user ∨ seatOf cfg c = .player uuid user →
        ∃ room, cfg.shared.rooms[uuid]? = some room := by
    rintro c uuid user (hc | hc)
    · obtain ⟨room, hroom, -⟩ := (hfit.lobby.rooms uuid).admin c user hc
      exact ⟨room, hroom⟩
    · obtain ⟨room, hroom, -⟩ := (hplaced uuid).player c user hc
      exact ⟨room, hroom⟩
  refine ⟨fun uuid room => (hfit.lobby.rooms uuid).nodup room,
    fun uuid room => (hfit.lobby.rooms uuid).capacity room, fun uuid room user hr => ⟨?_, ?_⟩,
    fun uuid uuid' room room' user hr hr' huser huser' => ?_, hroom,
    fun c session request hc e he hfaults => ?_, fun gm hgm user huser => ?_,
    endedGone_of_run hrun⟩
  · intro huser
    obtain ⟨c, hc⟩ := (hfit.lobby.rooms uuid).seated room hr user huser
    exact ⟨c, hc, fun c' hc' => hfit.distinct c' c user hc'.user_eq hc.user_eq⟩
  · rintro ⟨c, hc, -⟩
    exact (hplaced uuid).listed c user room hc hr
  · obtain ⟨c, hc⟩ := (hfit.lobby.rooms uuid).seated room hr user huser
    obtain ⟨c', hc'⟩ := (hfit.lobby.rooms uuid').seated room' hr' user huser'
    cases hfit.distinct c c' user hc.user_eq hc'.user_eq
    exact (hc.unique hc').1
  · have hblame := hfaults.of_wp
      (Handler.handleRequest_moves hfit.lobby.keyed session.handler request)
    have hnone : ∃ uuid user, (session.handler.seat = .admin uuid user ∨
        session.handler.seat = .player uuid user) ∧ cfg.shared.rooms[uuid]? = none := by
      simp only [List.mem_cons, List.not_mem_nil, or_false] at he
      rcases he with rfl | rfl | rfl <;> obtain ⟨uuid, user, hseat, hnone⟩ := hblame
      · exact ⟨uuid, user, .inl hseat, hnone⟩
      · exact ⟨uuid, user, .inl hseat, hnone⟩
      · exact ⟨uuid, user, .inr hseat, hnone⟩
    obtain ⟨uuid, user, hseat, hnone⟩ := hnone
    obtain ⟨room, hr⟩ := hroom c uuid user (seatOf_idle hc ▸ hseat)
    exact nomatch hnone.symm.trans hr
  · obtain ⟨room, hr, -, hlisted⟩ :=
      (hfit.lobby.games gm.uuid gm (mem_game? hfit.lobby.nodup hgm)).room
    exact ⟨room, hr, hlisted user huser⟩

/-- `bob` joins the room of `ann` and his connection breaks during the game: the room lists
`ann` only. -/
theorem membershipAgrees_exit : ∃ cfg, replayAtomic lobbyPlatform sampleDatabase
    (pairInGame ++ [wholeRequest 1 ⟨.getRoomStateRequest, []⟩, wholeRequest 1 exitRequest])
    (fun cfg l => decide (FreshRooms cfg l)) = some cfg ∧ MembershipAgrees lobbyPlatform cfg ∧
    (cfg.shared.rooms["room"]?.map Room.users) = some [⟨"ann"⟩] := by
  have hrun : ((replayAtomic lobbyPlatform sampleDatabase
    (pairInGame ++ [wholeRequest 1 ⟨.getRoomStateRequest, []⟩, wholeRequest 1 exitRequest])
    fun cfg l => decide (FreshRooms cfg l)).any fun cfg =>
      cfg.shared.rooms["room"]?.map Room.users = some [⟨"ann"⟩]) = true := by
    decide +kernel
  obtain ⟨cfg, hcfg, husers⟩ := (Option.any_eq_true _ _).mp hrun
  exact ⟨cfg, hcfg, membershipAgrees_of_freshRooms
    (atomicRun_of_replay hcfg fun _ _ h => of_decide_eq_true h), of_decide_eq_true husers⟩

end TriviaServer
