import TriviaServer.Verification.Holders
import TriviaServer.Verification.Questions
import TriviaServer.Verification.Requests

/-! # The lobby: seats, rooms and games of a run

Between two requests every connection has a seat. The seats, the rooms and the games fit
together in every state that a run of atomic requests reaches. -/

namespace TriviaServer

open Interaction
open Program (Returns)

variable {P : Platform} {s s' : Managers} {t : List (Event operations)}

/-! ## The games after a move -/

theorem mem_game? (hnodup : (s.games.map Game.uuid).Nodup) {gm : Game} (hgm : gm ∈ s.games) :
    s.game? gm.uuid = some gm := by
  cases hfind : s.game? gm.uuid with
  | none =>
      rw [Managers.game?, List.find?_eq_none] at hfind
      exact absurd (decide_eq_true rfl) (hfind gm hgm)
  | some gm' =>
      have hmem' : gm' ∈ s.games := List.mem_of_find?_eq_some hfind
      rw [List.inj_on_of_nodup_map hnodup hmem' hgm (game?_uuid hfind)]

theorem countP_uuid {g : String} {gm : Game} (hnodup : (s.games.map Game.uuid).Nodup)
    (hgm : s.game? g = some gm) : s.games.countP (·.uuid = g) = 1 := by
  have hcount := List.count_eq_one_of_mem hnodup
    (List.mem_map_of_mem (f := Game.uuid) (List.mem_of_find?_eq_some hgm))
  rw [game?_uuid hgm, List.count, List.countP_map] at hcount
  rw [← hcount]
  exact List.countP_congr fun gm' _ => by simp

theorem game?_of_games (h : s'.games = s.games) (g : String) : s'.game? g = s.game? g := by
  rw [Managers.game?, h]
  rfl

theorem game?_of_filter {g g' : String}
    (h : s'.games.filter (·.uuid ≠ g) = s.games.filter (·.uuid ≠ g)) (hne : g' ≠ g) :
    s'.game? g' = s.game? g' := by
  have hfilter : ∀ games : List Game,
      (games.filter (·.uuid ≠ g)).find? (·.uuid = g') = games.find? (·.uuid = g') := by
    intro games
    rw [List.find?_filter]
    congr 1
    funext gm
    by_cases huuid : gm.uuid = g' <;> simp [huuid, hne]
  rw [Managers.game?, Managers.game?, ← hfilter, h, hfilter]

theorem game?_setGame_other {g g' : String} {gm : Game} (hgm : gm.uuid = g) (hne : g' ≠ g) :
    (s.setGame g gm).game? g' = s.game? g' :=
  game?_of_filter (filter_replace s.games g hgm) hne

theorem game?_push {gm : Game} (hnew : s.game? gm.uuid = none)
    (hgames : s'.games = s.games ++ [gm]) (g : String) :
    s'.game? g = if g = gm.uuid then some gm else s.game? g := by
  have happend : s'.game? g = (s.game? g).or (if gm.uuid = g then some gm else none) := by
    simp only [Managers.game?, hgames, List.find?_append, List.find?_singleton, decide_eq_true_eq]
  rw [happend]
  by_cases hg : g = gm.uuid
  · subst hg
    simp [hnew]
  · simp [hg, Ne.symm hg]

/-- The games after an answer: its player's entry is another one. -/
theorem game?_answered {g : String} {gm gm' : Game} {user : LoggedUser}
    {answerIndex questionIndex answerTime answer : UInt32} (hg : s.game? g = some gm)
    (hanswer : gm.recordAnswer user answerIndex questionIndex answerTime = .ok (answer, gm'))
    (hgames : s'.games = (s.setGame g gm').games) :
    ∃ data, gm.players[user]? = some data ∧
      s'.game? g = some (gm.setPlayers (gm.players.insert user
        (data.submitAnswer answerIndex questionIndex.toNat answerTime))) ∧
      (∀ g', g' ≠ g → s'.game? g' = s.game? g') ∧
      s'.games.map Game.uuid = s.games.map Game.uuid := by
  obtain ⟨data, question, hdata, -, -, -, rfl⟩ := Game.recordAnswer_ok hanswer
  have hset : (gm.setPlayers (gm.players.insert user (data.submitAnswer answerIndex
    questionIndex.toNat answerTime))).uuid = g := (game?_uuid hg : gm.uuid = g)
  refine ⟨data, hdata, ?_, fun g' hne => ?_, ?_⟩
  · exact (game?_of_games hgames g).trans (game?_setGame hg hset)
  · exact (game?_of_games hgames g').trans (game?_setGame_other hset hne)
  · rw [hgames]
    exact map_uuid_replace s.games g hset

namespace Leaves

variable {g : String} {user : LoggedUser} {gm : Game} (h : Leaves s g user gm t s')

include h

theorem nodup (hnodup : (s.games.map Game.uuid).Nodup) : (s'.games.map Game.uuid).Nodup := by
  obtain ⟨s₀, k₁, k₂, k₃, players, db, t₀, r, hgames, -, -, hgames', -, -, -⟩ := h.departure
  rw [hgames']
  exact depart_nodup (game?_uuid h.found) (hgames ▸ hnodup)

theorem others {g' : String} (hne : g' ≠ g) : s'.game? g' = s.game? g' := by
  obtain ⟨s₀, k₁, k₂, k₃, players, db, t₀, r, hgames, -, -, hgames', -, -, -⟩ := h.departure
  refine game?_of_filter ?_ hne
  rw [hgames', depart_others (game?_uuid h.found), hgames]

/-- While somebody else is online the game goes on with the same players. -/
theorem present (hleft : ∃ p ∈ gm.onlinePlayers, p ≠ user) :
    ∃ players, s'.game? g = some ((gm.removePlayer user).setPlayers players) ∧
      ∀ p : LoggedUser, players[p]? = none ↔ gm.players[p]? = none := by
  obtain ⟨s₀, k₁, k₂, k₃, players, db, t₀, r, hgames, -, hd, hgames', -, -, -⟩ := h.departure
  obtain ⟨p, hp, hne⟩ := hleft
  have hmem : p ∈ (gm.removePlayer user).onlinePlayers :=
    List.mem_filter.mpr ⟨hp, decide_eq_true hne⟩
  refine ⟨players, ?_, fun p => hd.flags.eq_none⟩
  rw [game?_of_games hgames']
  exact depart_present ((game?_of_games hgames g).trans h.found) (List.ne_nil_of_mem hmem)

/-- The last one online takes the game along. -/
theorem gone (hnodup : (s.games.map Game.uuid).Nodup)
    (hlast : ∀ p ∈ gm.onlinePlayers, p = user) : s'.game? g = none := by
  obtain ⟨s₀, k₁, k₂, k₃, players, db, t₀, r, hgames, -, -, hgames', -, -, -⟩ := h.departure
  have hempty : (gm.removePlayer user).onlinePlayers = [] :=
    List.filter_eq_nil_iff.mpr fun p hp => by simpa using hlast p hp
  rw [game?_of_games hgames', Managers.game?, List.find?_eq_none]
  intro gm' hgm'
  simpa using depart_gone (game?_uuid h.found) (hgames ▸ hnodup) hempty gm' hgm'

end Leaves

/-! ## Seats -/

namespace Seat

def user : Seat → Option LoggedUser
  | outside => none
  | member _ user => some user
  | admin _ user => some user
  | player _ user => some user

/-- The seat is one of the user in the room. -/
def At (x : Seat) (uuid : String) (user : LoggedUser) : Prop :=
  x = .member uuid user ∨ x = .admin uuid user ∨ x = .player uuid user

instance (x : Seat) (uuid : String) (user : LoggedUser) : Decidable (x.At uuid user) :=
  inferInstanceAs (Decidable (_ ∨ _ ∨ _))

theorem At.user_eq {x : Seat} {uuid : String} {user : LoggedUser} (h : x.At uuid user) :
    x.user = some user := by
  rcases h with rfl | rfl | rfl <;> rfl

theorem At.unique {x : Seat} {uuid uuid' : String} {user user' : LoggedUser}
    (h : x.At uuid user) (h' : x.At uuid' user') : uuid = uuid' ∧ user = user' := by
  rcases h with rfl | rfl | rfl <;> rcases h' with h' | h' | h' <;> cases h' <;> exact ⟨rfl, rfl⟩

theorem not_at_outside {uuid : String} {user : LoggedUser} : ¬ Seat.outside.At uuid user := by
  rintro (h | h | h) <;> cases h

end Seat

/-- The seat of a connection; while it is not there it has none. -/
def seatOf (cfg : ServerConfig) (c : ℕ) : Seat :=
  match cfg.clients c with
  | .idle session => session.handler.seat
  | _ => .outside

/-- No user has two seats. -/
def Distinct (seats : ℕ → Seat) : Prop :=
  ∀ c c' user, (seats c).user = some user → (seats c').user = some user → c = c'

/-! ## A room and its seats -/

/-- The seats that a move of one connection away from `uuid` leaves as they were. -/
def SameAt (seats seats' : ℕ → Seat) (uuid : String) : Prop :=
  ∀ c x user, x.At uuid user → (seats' c = x ↔ seats c = x)

namespace SameAt

variable {seats seats' : ℕ → Seat} {uuid : String} {c : ℕ} {user : LoggedUser}

theorem update {x : Seat} (hold : ∀ user, ¬ (seats c).At uuid user)
    (hnew : ∀ user, ¬ x.At uuid user) : SameAt seats (Function.update seats c x) uuid := by
  intro c' y user hy
  by_cases hc : c' = c
  · subst hc
    rw [Function.update_self]
    exact iff_of_false (fun heq => hnew user (heq ▸ hy)) fun heq => hold user (heq ▸ hy)
  · rw [Function.update_of_ne hc]

theorem at_iff (h : SameAt seats seats' uuid) : (seats' c).At uuid user ↔ (seats c).At uuid user :=
  or_congr (h c _ user (.inl rfl)) (or_congr (h c _ user (.inr (.inl rfl)))
    (h c _ user (.inr (.inr rfl))))

theorem admin_iff (h : SameAt seats seats' uuid) :
    seats' c = .admin uuid user ↔ seats c = .admin uuid user :=
  h c _ user (.inr (.inl rfl))

theorem player_iff (h : SameAt seats seats' uuid) :
    seats' c = .player uuid user ↔ seats c = .player uuid user :=
  h c _ user (.inr (.inr rfl))

end SameAt

/-- What there is at a uuid fits the seats there: everybody listed has one, and a room that waits
for its game has its one admin listed. -/
structure RoomFits (seats : ℕ → Seat) (uuid : String) (room : Option Room) : Prop where
  keyed : ∀ r, room = some r → r.metadata.uuid = uuid
  nodup : ∀ r, room = some r → r.users.Nodup
  capacity : ∀ r, room = some r → r.users.length ≤ r.metadata.maxPlayers.toNat
  seated : ∀ r, room = some r → ∀ user ∈ r.users, ∃ c, (seats c).At uuid user
  admin : ∀ c user, seats c = .admin uuid user →
    ∃ r, room = some r ∧ r.metadata.isActive = false ∧ user ∈ r.users
  one_admin : ∀ c c' user user', seats c = .admin uuid user → seats c' = .admin uuid user' → c = c'
  has_admin : ∀ r, room = some r → r.metadata.isActive = false →
    ∃ c user, seats c = .admin uuid user

/-- A game fits the room of its uuid: the room is active and lists everybody online. -/
structure GameFits (room : Option Room) (gm : Game) : Prop where
  online_ne : gm.onlinePlayers ≠ []
  room : ∃ r, room = some r ∧ r.metadata.isActive = true ∧ ∀ p ∈ gm.onlinePlayers, p ∈ r.users
  players : ∀ p ∈ gm.onlinePlayers, gm.players[p]? ≠ none

/-- The rooms and games of a state, with the seats of the connections. -/
structure Lobby (s : Managers) (seats : ℕ → Seat) : Prop where
  rooms : ∀ uuid, RoomFits seats uuid s.rooms[uuid]?
  nodup : (s.games.map Game.uuid).Nodup
  games : ∀ g gm, s.game? g = some gm → GameFits s.rooms[g]? gm

namespace RoomFits

variable {seats seats' : ℕ → Seat} {uuid : String} {room : Option Room} {c : ℕ} {user : LoggedUser}

theorem other (h : RoomFits seats uuid room) (hsame : SameAt seats seats' uuid) :
    RoomFits seats' uuid room where
  keyed := h.keyed
  nodup := h.nodup
  capacity := h.capacity
  seated r hr user huser := by
    obtain ⟨c, hc⟩ := h.seated r hr user huser
    exact ⟨c, hsame.at_iff.mpr hc⟩
  admin c user hc := h.admin c user (hsame.admin_iff.mp hc)
  one_admin c c' user user' hc hc' :=
    h.one_admin c c' user user' (hsame.admin_iff.mp hc) (hsame.admin_iff.mp hc')
  has_admin r hr hactive := by
    obtain ⟨c, user, hc⟩ := h.has_admin r hr hactive
    exact ⟨c, user, hsame.admin_iff.mpr hc⟩

/-- Nothing is there, and nobody waits for anything there. -/
theorem empty (hadmin : ∀ c user, seats c ≠ .admin uuid user) : RoomFits seats uuid none where
  keyed := nofun
  nodup := nofun
  capacity := nofun
  seated := nofun
  admin c user hc := absurd hc (hadmin c user)
  one_admin c _ user _ hc := absurd hc (hadmin c user)
  has_admin := nofun

theorem no_admin (h : RoomFits seats uuid room)
    (hactive : ∀ r, room = some r → r.metadata.isActive = true) (c : ℕ) (user : LoggedUser) :
    seats c ≠ .admin uuid user := by
  intro hc
  obtain ⟨r, hr, hinactive, -⟩ := h.admin c user hc
  exact nomatch hinactive.symm.trans (hactive r hr)

theorem update_ne_admin {x : Seat} (hx : ∀ user, x ≠ .admin uuid user)
    (hseats : ∀ c' user, c' ≠ c → seats c' ≠ .admin uuid user) (c' : ℕ) (user : LoggedUser) :
    Function.update seats c x c' ≠ .admin uuid user := by
  refine (Function.forall_update_iff seats fun _ y => ∀ user, y ≠ .admin uuid user).mpr
    ⟨hx, fun c' hcc user => hseats c' user hcc⟩ c' user

/-- The other admins of a room whose admin is known. -/
theorem admin_ne (h : RoomFits seats uuid room) (hc : seats c = .admin uuid user) (c' : ℕ)
    (user' : LoggedUser) (hne : c' ≠ c) : seats c' ≠ .admin uuid user' :=
  fun hc' => hne (h.one_admin c' c user' user hc' hc)

theorem seated_update {x : Seat} {r : Room} (h : RoomFits seats uuid (some r))
    (hmoved : ∀ user ∈ r.users, (seats c).At uuid user → x.At uuid user) :
    ∀ user ∈ r.users, ∃ c', (Function.update seats c x c').At uuid user := by
  intro user huser
  obtain ⟨c', hc'⟩ := h.seated r rfl user huser
  refine (Function.exists_update_iff seats fun _ y => y.At uuid user).mpr ?_
  by_cases hcc : c' = c
  · exact .inl (hmoved user huser (hcc ▸ hc'))
  · exact .inr ⟨c', hcc, hc'⟩

theorem created {r : Room} (h : RoomFits seats uuid none) (husers : r.users = [user])
    (huuid : r.metadata.uuid = uuid) (hactive : r.metadata.isActive = false)
    (hmax : 1 < r.metadata.maxPlayers.toNat) :
    RoomFits (Function.update seats c (.admin uuid user)) uuid (some r) := by
  have hother : ∀ c' user', c' ≠ c → seats c' ≠ .admin uuid user' := fun c' user' _ =>
    h.no_admin nofun c' user'
  have honly : ∀ c' user', Function.update seats c (.admin uuid user) c' = .admin uuid user' →
      c' = c ∧ user' = user := by
    intro c' user' hc'
    by_cases hcc : c' = c
    · subst hcc
      rw [Function.update_self] at hc'
      cases hc'
      exact ⟨rfl, rfl⟩
    · rw [Function.update_of_ne hcc] at hc'
      exact absurd hc' (hother c' user' hcc)
  refine ⟨?_, ?_, ?_, ?_, fun c' user' hc' => ?_, fun c₁ c₂ user₁ user₂ h₁ h₂ => ?_, ?_⟩
  · rintro _ ⟨⟩
    exact huuid
  · rintro _ ⟨⟩
    rw [husers]
    exact List.nodup_singleton user
  · rintro _ ⟨⟩
    rw [husers]
    exact hmax.le
  · rintro _ ⟨⟩ user' huser'
    rw [husers, List.mem_singleton] at huser'
    exact ⟨c, .inr (.inl (by rw [Function.update_self, huser']))⟩
  · obtain ⟨-, rfl⟩ := honly c' user' hc'
    exact ⟨r, rfl, hactive, by rw [husers]; exact List.mem_cons_self⟩
  · rw [(honly c₁ user₁ h₁).1, (honly c₂ user₂ h₂).1]
  · rintro _ ⟨⟩ -
    exact ⟨c, user, Function.update_self ..⟩

/-- A room that stays as inactive as it was, with other users. -/
theorem changed {x : Seat} {r r' : Room} (h : RoomFits seats uuid (some r))
    (hmetadata : r'.metadata = r.metadata) (hnodup : r'.users.Nodup)
    (hcapacity : r'.users.length ≤ r'.metadata.maxPlayers.toNat)
    (hold : ∀ user, seats c ≠ .admin uuid user) (hnew : ∀ user, x ≠ .admin uuid user)
    (hseated : ∀ user ∈ r'.users, ∃ c', (Function.update seats c x c').At uuid user)
    (hadmins : ∀ c' user, seats c' = .admin uuid user → user ∈ r'.users) :
    RoomFits (Function.update seats c x) uuid (some r') := by
  have hadmin_iff : ∀ c' user, Function.update seats c x c' = .admin uuid user ↔
      seats c' = .admin uuid user := by
    intro c' user
    by_cases hcc : c' = c
    · subst hcc
      rw [Function.update_self]
      exact iff_of_false (hnew user) (hold user)
    · rw [Function.update_of_ne hcc]
  refine ⟨?_, ?_, ?_, ?_, fun c' user' hc' => ?_, fun c₁ c₂ user₁ user₂ h₁ h₂ => ?_, ?_⟩
  · rintro _ ⟨⟩
    rw [hmetadata]
    exact h.keyed r rfl
  · rintro _ ⟨⟩
    exact hnodup
  · rintro _ ⟨⟩
    exact hcapacity
  · rintro _ ⟨⟩
    exact hseated
  · obtain ⟨r₀, hr₀, hactive, -⟩ := h.admin c' user' ((hadmin_iff c' user').mp hc')
    cases hr₀
    exact ⟨r', rfl, by rw [hmetadata, hactive], hadmins c' user' ((hadmin_iff c' user').mp hc')⟩
  · exact h.one_admin c₁ c₂ user₁ user₂ ((hadmin_iff c₁ user₁).mp h₁) ((hadmin_iff c₂ user₂).mp h₂)
  · rintro _ ⟨⟩ hactive
    obtain ⟨c', user', hc'⟩ := h.has_admin r rfl (by rw [← hmetadata, hactive])
    exact ⟨c', user', (hadmin_iff c' user').mpr hc'⟩

theorem joined {r r' : Room} (h : RoomFits seats uuid (some r)) (hc : seats c = .outside)
    (hadd : r.addUser user = .ok r') :
    RoomFits (Function.update seats c (.member uuid user)) uuid (some r') := by
  obtain ⟨hlt, hnew, rfl⟩ := Room.addUser_ok hadd
  refine h.changed rfl ?_ ?_ (fun user' heq => nomatch hc.symm.trans heq) nofun ?_ ?_
  · rw [← List.concat_eq_append, List.nodup_concat]
    exact ⟨hnew, h.nodup r rfl⟩
  · rw [List.length_append]
    exact hlt
  · intro user' huser'
    rcases List.mem_append.mp huser' with huser' | huser'
    · refine h.seated_update (fun user'' _ hat => ?_) user' huser'
      rw [hc] at hat
      exact absurd hat Seat.not_at_outside
    · rw [List.mem_singleton.mp huser']
      exact ⟨c, .inl (Function.update_self ..)⟩
  · intro c' user' hc'
    obtain ⟨r₀, hr₀, -, hmem⟩ := h.admin c' user' hc'
    cases hr₀
    exact List.mem_append_left _ hmem

/-- The seat of a member or a player is given up. -/
theorem removed {r : Room} (h : RoomFits seats uuid (some r)) (hd : Distinct seats)
    (hc : (seats c).At uuid user) (hadmin : ∀ user, seats c ≠ .admin uuid user) :
    RoomFits (Function.update seats c .outside) uuid (some (r.removeUser user)) := by
  refine h.changed rfl ((h.nodup r rfl).filter _) ?_ hadmin nofun ?_ ?_
  · exact (List.length_filter_le _ _).trans (h.capacity r rfl)
  · intro user' huser'
    obtain ⟨huser', hne⟩ := List.mem_filter.mp huser'
    obtain ⟨c', hc'⟩ := h.seated r rfl user' huser'
    have hcc : c' ≠ c := by
      rintro rfl
      exact of_decide_eq_true hne (hc'.unique hc).2
    exact ⟨c', by rwa [Function.update_of_ne hcc]⟩
  · intro c' user' hc'
    obtain ⟨r₀, hr₀, -, hmem⟩ := h.admin c' user' hc'
    cases hr₀
    refine List.mem_filter.mpr ⟨hmem, decide_eq_true fun heq => ?_⟩
    have hcc : c' = c := hd c' c user (by rw [hc', ← heq]; rfl) hc.user_eq
    exact hadmin user' (hcc ▸ hc')

/-- A member enters the game. -/
theorem entered {r : Room} (h : RoomFits seats uuid (some r)) (hc : seats c = .member uuid user) :
    RoomFits (Function.update seats c (.player uuid user)) uuid (some r) := by
  have hmember : ∀ user', seats c ≠ .admin uuid user' := fun user' heq =>
    nomatch hc.symm.trans heq
  refine h.changed rfl (h.nodup r rfl) (h.capacity r rfl) hmember nofun
    (h.seated_update fun user' _ hat => ?_) fun c' user' hc' => ?_
  · rw [hc] at hat
    obtain ⟨-, rfl⟩ := hat.unique (.inl rfl)
    exact .inr (.inr rfl)
  · obtain ⟨r₀, hr₀, -, hmem⟩ := h.admin c' user' hc'
    cases hr₀
    exact hmem

/-- The admin starts the game. -/
theorem started {r : Room} (h : RoomFits seats uuid (some r)) (hc : seats c = .admin uuid user) :
    RoomFits (Function.update seats c (.player uuid user)) uuid (some (r.setIsActive true)) := by
  have hno : ∀ c' user', Function.update seats c (.player uuid user) c' ≠ .admin uuid user' :=
    update_ne_admin nofun (h.admin_ne hc)
  refine ⟨?_, ?_, ?_, ?_, fun c' user' hc' => absurd hc' (hno c' user'),
    fun c' _ user' _ hc' => absurd hc' (hno c' user'), ?_⟩
  · rintro _ ⟨⟩
    exact h.keyed r rfl
  · rintro _ ⟨⟩
    exact h.nodup r rfl
  · rintro _ ⟨⟩
    exact h.capacity r rfl
  · rintro _ ⟨⟩
    refine h.seated_update fun user' _ hat => ?_
    rw [hc] at hat
    obtain ⟨-, rfl⟩ := hat.unique (.inr (.inl rfl))
    exact .inr (.inr rfl)
  · rintro _ ⟨⟩ hactive
    cases hactive

end RoomFits

/-! ## A game and its room -/

namespace GameFits

variable {room : Option Room} {r : Room} {gm : Game} {user : LoggedUser}

/-- A room where nobody plays. -/
theorem not_fits (hroom : ∀ r, room = some r → r.metadata.isActive = false) :
    ¬ GameFits room gm := by
  intro h
  obtain ⟨r, hr, hactive, -⟩ := h.room
  exact nomatch hactive.symm.trans (hroom r hr)

theorem joined {r' : Room} (h : GameFits (some r) gm) (hadd : r.addUser user = .ok r') :
    GameFits (some r') gm := by
  obtain ⟨-, -, rfl⟩ := Room.addUser_ok hadd
  obtain ⟨r₀, hr₀, hactive, hlisted⟩ := h.room
  cases hr₀
  exact ⟨h.online_ne, ⟨_, rfl, hactive, fun p hp => List.mem_append_left _ (hlisted p hp)⟩,
    h.players⟩

/-- The game goes on without the player, and the room does as well. -/
theorem removed {players : Std.TreeMap LoggedUser GameData} (h : GameFits (some r) gm)
    (hleft : ∃ p ∈ gm.onlinePlayers, p ≠ user)
    (hplayers : ∀ p : LoggedUser, players[p]? = none ↔ gm.players[p]? = none) :
    GameFits (some (r.removeUser user)) ((gm.removePlayer user).setPlayers players) := by
  obtain ⟨p, hp, hne⟩ := hleft
  obtain ⟨r₀, hr₀, hactive, hlisted⟩ := h.room
  cases hr₀
  have hmem : p ∈ (gm.removePlayer user).onlinePlayers :=
    List.mem_filter.mpr ⟨hp, decide_eq_true hne⟩
  refine ⟨List.ne_nil_of_mem hmem, ⟨_, rfl, hactive, fun q hq => ?_⟩, fun q hq hnone => ?_⟩
  · obtain ⟨hq, hqne⟩ := List.mem_filter.mp hq
    exact List.mem_filter.mpr ⟨hlisted q hq, hqne⟩
  · exact h.players q (List.mem_filter.mp hq).1 ((hplayers q).mp hnone)

theorem answered {players : Std.TreeMap LoggedUser GameData} (h : GameFits room gm)
    (hplayers : ∀ p : LoggedUser, players[p]? = none → gm.players[p]? = none) :
    GameFits room (gm.setPlayers players) :=
  ⟨h.online_ne, h.room, fun p hp hnone => h.players p hp (hplayers p hnone)⟩

end GameFits

/-! ## One move -/

namespace Lobby

variable {seats : ℕ → Seat} {c : ℕ} {x : Seat} {uuid : String} {room : Option Room}

/-- A move at one uuid. -/
theorem change (h : Lobby s seats) (hrooms : RoomChanges s s' uuid room)
    (hold : ∀ uuid' user, (seats c).At uuid' user → uuid' = uuid)
    (hnew : ∀ uuid' user, x.At uuid' user → uuid' = uuid)
    (hfit : RoomFits (Function.update seats c x) uuid room)
    (hnodup : (s'.games.map Game.uuid).Nodup) (hothers : ∀ g, g ≠ uuid → s'.game? g = s.game? g)
    (hgame : ∀ gm, s'.game? uuid = some gm → GameFits room gm) :
    Lobby s' (Function.update seats c x) where
  rooms uuid' := by
    rw [hrooms uuid']
    split_ifs with huuid
    · exact huuid ▸ hfit
    · exact (h.rooms uuid').other (.update (fun user hat => huuid (hold uuid' user hat))
        fun user hat => huuid (hnew uuid' user hat))
  nodup := hnodup
  games g gm hg := by
    rw [hrooms g]
    split_ifs with huuid
    · exact hgame gm (huuid ▸ hg)
    · exact h.games g gm (hothers g huuid ▸ hg)

theorem keyed (h : Lobby s seats) : Keyed s := fun uuid r hr => (h.rooms uuid).keyed r hr

theorem only_at {x : Seat} {user : LoggedUser} (hx : x.At uuid user) :
    ∀ uuid' user', x.At uuid' user' → uuid' = uuid := fun _ _ hat => (hat.unique hx).1

theorem only_outside : ∀ uuid' user, Seat.outside.At uuid' user → uuid' = uuid :=
  fun _ _ hat => absurd hat Seat.not_at_outside

/-- A room that is as it was. -/
theorem roomChanges_same (hrooms : s'.rooms = s.rooms) (hroom : s.rooms[uuid]? = room) :
    RoomChanges s s' uuid room := by
  intro uuid'
  rw [hrooms]
  split_ifs with huuid
  · rw [huuid, hroom]
  · rfl

/-- A room that waits for its game has none. -/
theorem no_game {r : Room} (h : Lobby s seats) (hr : s.rooms[uuid]? = some r)
    (hactive : r.metadata.isActive = false) : s.game? uuid = none := by
  refine Option.eq_none_iff_forall_ne_some.mpr fun gm hgm => ?_
  have hfits := h.games uuid gm hgm
  rw [hr] at hfits
  exact GameFits.not_fits (fun r' hr' => by cases hr'; exact hactive) hfits

/-- A player is gone from the room and its game. -/
theorem leave {user : LoggedUser} {r : Room} {gm : Game} (h : Lobby s seats) (hd : Distinct seats)
    (hr : s.rooms[uuid]? = some r) (hc : (seats c).At uuid user)
    (hadmin : ∀ user, seats c ≠ .admin uuid user) (hl : Leaves s uuid user gm t s')
    (hroom : room = some (r.removeUser user) ∨
      (room = none ∧ ∀ p ∈ r.users, p = user))
    (hrooms : RoomChanges s s' uuid room) : Lobby s' (Function.update seats c .outside) := by
  have hfits := h.games uuid gm hl.found
  have hroomFits := h.rooms uuid
  rw [hr] at hfits hroomFits
  obtain ⟨r₀, hr₀, hactive, hlisted⟩ := hfits.room
  cases hr₀
  refine h.change hrooms (only_at hc) only_outside ?_ (hl.nodup h.nodup)
    (fun g hne => hl.others hne) fun gm' hgm' => ?_
  · rcases hroom with rfl | ⟨rfl, -⟩
    · exact hroomFits.removed hd hc hadmin
    · refine .empty (RoomFits.update_ne_admin nofun fun c' user' _ => ?_)
      exact hroomFits.no_admin (fun r' hr' => by cases hr'; exact hactive) c' user'
  · by_cases hleft : ∃ p ∈ gm.onlinePlayers, p ≠ user
    · obtain ⟨players, hplayers, hkeys⟩ := hl.present hleft
      obtain rfl := Option.some.inj (hgm'.symm.trans hplayers)
      rcases hroom with rfl | ⟨rfl, hlast⟩
      · exact hfits.removed hleft hkeys
      · obtain ⟨p, hp, hne⟩ := hleft
        exact absurd (hlast p (hlisted p hp)) hne
    · have hlast : ∀ p ∈ gm.onlinePlayers, p = user := fun p hp =>
        Classical.byContradiction fun hne => hleft ⟨p, hp, hne⟩
      exact nomatch hgm'.symm.trans (hl.gone h.nodup hlast)

/-- Every move keeps the lobby, as long as no user has two seats and everybody who has one has
an account. -/
theorem move (h : Lobby s seats) (hd : Distinct seats)
    (hnamed : ∀ user, (seats c).user = some user → user.username ∈ s.names)
    (hm : Move s t s' (seats c) x) : Lobby s' (Function.update seats c x) := by
  generalize hc : seats c = y at hm
  have hgames : s'.games = s.games → (s'.games.map Game.uuid).Nodup := fun heq => heq ▸ h.nodup
  have hothers : s'.games = s.games → ∀ uuid g, g ≠ uuid → s'.game? g = s.game? g :=
    fun heq _ g _ => game?_of_games heq g
  have hgame : s'.games = s.games → ∀ uuid gm, s'.game? uuid = some gm →
      GameFits s.rooms[uuid]? gm := fun heq uuid gm hgm =>
    h.games uuid gm ((game?_of_games heq uuid).symm.trans hgm)
  cases hm with
  | stay hrooms heq _ =>
      rw [← hc, Function.update_eq_self]
      exact ⟨fun uuid => hrooms ▸ h.rooms uuid, hgames heq,
        fun g gm hg => hrooms ▸ hgame heq g gm hg⟩
  | @created uuid user r hnone husers huuid hactive hmax hrooms heq _ =>
      have hfits := h.rooms uuid
      rw [hnone] at hfits
      refine h.change hrooms (hc ▸ only_outside) (only_at (.inr (.inl rfl)))
        (hfits.created husers huuid hactive hmax) (hgames heq) (hothers heq uuid) fun gm hgm => ?_
      have hfits := hgame heq uuid gm hgm
      rw [hnone] at hfits
      exact absurd hfits (GameFits.not_fits nofun)
  | @joined uuid user r r' hr hadd hrooms heq _ =>
      have hfits := h.rooms uuid
      rw [hr] at hfits
      refine h.change hrooms (hc ▸ only_outside) (only_at (.inl rfl)) (hfits.joined hc hadd)
        (hgames heq) (hothers heq uuid) fun gm hgm => ?_
      have hfits := hgame heq uuid gm hgm
      rw [hr] at hfits
      exact hfits.joined hadd
  | @dismissed uuid user hnone hrooms heq _ =>
      have hfits := h.rooms uuid
      rw [hnone] at hfits
      refine h.change (roomChanges_same hrooms hnone) (hc ▸ only_at (.inl rfl)) only_outside
        (.empty (RoomFits.update_ne_admin nofun fun c' user' _ => hfits.no_admin nofun c' user'))
        (hgames heq) (hothers heq uuid) fun gm hgm => hnone ▸ hgame heq uuid gm hgm
  | @left uuid user r hr hactive hrooms heq _ =>
      have hfits := h.rooms uuid
      rw [hr] at hfits
      refine h.change hrooms (hc ▸ only_at (.inl rfl)) only_outside
        (hfits.removed hd (.inl hc) fun user' heq => nomatch hc.symm.trans heq) (hgames heq)
        (hothers heq uuid) fun gm hgm => ?_
      have hfits := hgame heq uuid gm hgm
      rw [hr] at hfits
      exact absurd hfits (GameFits.not_fits fun r' hr' => by cases hr'; exact hactive)
  | @deserted uuid user r gm hr hactive hl hrooms =>
      exact h.leave hd hr (.inl hc) (fun user' heq => nomatch hc.symm.trans heq) hl (.inl rfl)
        hrooms
  | @entered uuid user r gm hr hactive hg hrooms heq _ =>
      have hfits := h.rooms uuid
      rw [hr] at hfits
      exact h.change (roomChanges_same hrooms hr) (hc ▸ only_at (.inl rfl))
        (only_at (.inr (.inr rfl))) (hfits.entered hc) (hgames heq) (hothers heq uuid)
        fun gm hgm => hr ▸ hgame heq uuid gm hgm
  | @closed uuid user r hr hrooms heq _ =>
      have hfits := h.rooms uuid
      obtain ⟨r₀, hr₀, hactive, -⟩ := hfits.admin c user hc
      refine h.change hrooms (hc ▸ only_at (.inr (.inl rfl))) only_outside
        (.empty (RoomFits.update_ne_admin nofun (hfits.admin_ne hc))) (hgames heq)
        (hothers heq uuid) fun gm hgm => ?_
      refine absurd (hgame heq uuid gm hgm) (GameFits.not_fits fun r' hr' => ?_)
      cases hr₀.symm.trans hr'
      exact hactive
  | @started uuid user r questions time now hr hrooms heq _ _ =>
      have hfits := h.rooms uuid
      obtain ⟨r₀, hr₀, hactive, hlisted⟩ := hfits.admin c user hc
      cases hr.symm.trans hr₀
      rw [hr] at hfits
      have hnone := h.no_game hr hactive
      have hpush : ∀ g, s'.game? g =
          if g = uuid then some (.new questions r.users uuid time now) else s.game? g :=
        fun g => game?_push hnone heq g
      refine h.change hrooms (hc ▸ only_at (.inr (.inl rfl))) (only_at (.inr (.inr rfl)))
        (hfits.started hc) ?_ (fun g hne => ?_) fun gm hgm => ?_
      · rw [heq, List.map_append]
        refine List.nodup_append.mpr ⟨h.nodup, List.nodup_singleton _, fun g hg g' hg' heq => ?_⟩
        obtain ⟨gm, hgm, rfl⟩ := List.mem_map.mp hg
        have hfound := mem_game? h.nodup hgm
        rw [heq, List.mem_singleton.mp hg'] at hfound
        exact nomatch hnone.symm.trans hfound
      · exact (hpush g).trans (if_neg hne)
      · rw [hpush uuid] at hgm
        cases Option.some.inj ((if_pos rfl).symm.trans hgm)
        refine ⟨List.ne_nil_of_mem hlisted, ⟨_, rfl, rfl, fun p hp => hp⟩, fun p hp hno => ?_⟩
        rw [Game.new_players, if_pos (show p ∈ r.users from hp)] at hno
        cases hno
  | @answered g user gm gm' answerIndex questionIndex answerTime answer hg hanswer hrooms heq _ _ =>
      obtain ⟨data, -, hself, hother, huuids⟩ := game?_answered hg hanswer heq
      have hsame : Function.update seats c (.player g user) = seats := by
        rw [← hc, Function.update_eq_self]
      refine h.change (roomChanges_same hrooms rfl) (hc ▸ only_at (.inr (.inr rfl)))
        (only_at (.inr (.inr rfl))) (hsame.symm ▸ h.rooms g) (huuids ▸ h.nodup) hother
        fun gm' hgm' => ?_
      cases hself.symm.trans hgm'
      refine (h.games g gm hg).answered fun p hnone => ?_
      rw [Std.TreeMap.getElem?_insert] at hnone
      split_ifs at hnone
      exact hnone
  | @quit g user gm r hr hl hrooms =>
      refine h.leave hd hr (.inr (.inr hc)) (fun user' heq => nomatch hc.symm.trans heq) hl ?_
        hrooms
      split_ifs with hempty
      · refine .inr ⟨rfl, fun p hp => ?_⟩
        have hnil := List.filter_eq_nil_iff.mp (List.isEmpty_iff.mp hempty) p hp
        simpa using hnil
      · exact .inl rfl
  | @unbooked g user gm hl hno hrooms =>
      exact absurd (hnamed user (by rw [hc]; rfl)) hno

end Lobby

/-! ## Requests that leave -/

namespace RoomMemberRequestHandler

theorem leaveRoom_outside (roomUuid roomName : String) (user : LoggedUser) :
    (leaveRoom roomUuid roomName user).Returns fun r => r.handler.seat = .outside := by
  refine Returns.bind fun state => ?_
  cases state with
  | none => rfl
  | some state =>
      dsimp only
      split_ifs
      · exact Returns.bind fun _ => Returns.bind fun _ => rfl
      · exact Returns.bind fun _ => rfl

end RoomMemberRequestHandler

namespace RoomAdminRequestHandler

theorem closeRoom_outside (room : String) (user : LoggedUser) :
    (closeRoom room user).Returns fun r => r.handler.seat = .outside :=
  Returns.bind fun _ => Returns.bind fun _ => rfl

end RoomAdminRequestHandler

namespace GameRequestHandler

theorem leaveGame_outside (g : String) (user : LoggedUser) :
    (leaveGame g user).Returns fun r => r.handler.seat = .outside := by
  refine Returns.bind fun _ => Returns.bind fun booked => ?_
  cases booked with
  | some e => rfl
  | none => exact Returns.bind fun _ => rfl

end GameRequestHandler

/-- The requests that give up a place in an active room. -/
def Seat.leaves : Seat → RequestId → Bool
  | .member .., id => id = .leaveRoomRequest || id = .exit
  | .player .., id => id = .leaveGameRequest || id = .exit
  | _, _ => false

/-- A member of a room that is there stays in it through its other requests. -/
theorem RoomMemberRequestHandler.stays {roomUuid roomName : String} {user : LoggedUser}
    {request : RequestInfo} {room : Room} (hroom : s.rooms[roomUuid]? = some room)
    (hleaves : (Seat.member roomUuid user).leaves request.requestId = false) :
    wp (machine true) (fun _ => True) (handleRequest roomUuid roomName user request)
      (fun _ r _ => r.handler.seat ≠ .outside) s := by
  unfold handleRequest
  dsimp only
  split_ifs
  · exact nofun
  · split
    · next hid => simp [Seat.leaves, hid] at hleaves
    · unfold getRoomState
      rw [wp_bind]
      refine wp_getRoomState fun state hstate => ?_
      rw [hroom, Option.map_some] at hstate
      subst hstate
      refine wp_of_exec fun t r s' hx => hx.of_returns (φ := fun r => r.handler.seat ≠ .outside)
        (Returns.bind fun players => ?_)
      cases players with
      | error e => exact nofun
      | ok players =>
          dsimp only
          split_ifs
          · exact Returns.bind fun _ => nofun
          · exact nofun
    · next hid => simp [Seat.leaves, hid] at hleaves
    · exact nofun

/-- A player stays in the game through its other requests. -/
theorem GameRequestHandler.stays {g : String} {user : LoggedUser} {request : RequestInfo}
    (hleaves : (Seat.player g user).leaves request.requestId = false) :
    (handleRequest P g user request).Returns fun r => r.handler.seat = .player g user := by
  unfold handleRequest
  split_ifs
  · rfl
  · split
    · next hid => simp [Seat.leaves, hid] at hleaves
    · refine Returns.bind fun finished => ?_
      split_ifs
      · rfl
      · exact Returns.bind fun _ => rfl
    · refine Returns.bind fun details => ?_
      cases details with
      | error e => rfl
      | ok details =>
          refine Returns.bind fun finished => ?_
          split_ifs
          · rfl
          · refine Returns.bind fun res => ?_
            cases res <;> rfl
    · refine Returns.bind fun finished => ?_
      split_ifs
      · rfl
      · refine Returns.bind fun usersMap => Returns.bind fun online =>
          Returns.bind fun players => ?_
        cases players with
        | error e => rfl
        | ok players =>
            refine Returns.bind fun results => ?_
            cases usersMap[user]? with
            | none => exact fun r => nomatch r
            | some data => rfl
    · next hid => simp [Seat.leaves, hid] at hleaves
    · rfl

/-- Whoever leaves an active room has asked to. -/
theorem leaves_of_outside {h : Handler} {request : RequestInfo} {r : RequestResult} {room : Room}
    {uuid : String} {user : LoggedUser}
    (hx : Exec (machine true) (h.handleRequest P request) s t r s')
    (hseat : h.seat = .member uuid user ∨ h.seat = .player uuid user)
    (hroom : s.rooms[uuid]? = some room) (hout : r.handler.seat = .outside) :
    h.seat.leaves request.requestId = true := by
  refine Bool.eq_true_of_not_eq_false fun hleaves => ?_
  cases h with
  | login | verification | menu | roomAdmin => rcases hseat with hseat | hseat <;> cases hseat
  | roomMember roomUuid roomName user =>
      rcases hseat with hseat | hseat <;> cases hseat
      exact hx.of_wp (RoomMemberRequestHandler.stays hroom hleaves) hout
  | game g user =>
      rcases hseat with hseat | hseat <;> cases hseat
      have hstays : r.handler.seat = .player uuid user :=
        hx.of_returns (GameRequestHandler.stays hleaves)
      exact nomatch hstays.symm.trans hout

/-- An exit gives the seat up. -/
theorem exit_outside (h : Handler) {request : RequestInfo} (hexit : request.requestId = .exit) :
    (h.handleRequest P request).Returns fun r => r.handler.seat = .outside := by
  cases h with
  | login =>
      show (LoginRequestHandler.handleRequest P request).Returns _
      unfold LoginRequestHandler.handleRequest
      rw [if_neg (by simp [LoginRequestHandler.isRequestRelevant, hexit]), hexit]
      rfl
  | verification tries email code username =>
      show (VerificationRequestHandler.handleRequest P tries email code username request).Returns _
      unfold VerificationRequestHandler.handleRequest
      dsimp only
      rw [if_neg (by simp [VerificationRequestHandler.isRequestRelevant, hexit]), hexit]
      exact Returns.bind fun _ => Returns.bind fun _ => rfl
  | menu user =>
      show (MenuRequestHandler.handleRequest P user request).Returns _
      unfold MenuRequestHandler.handleRequest
      rw [if_neg (by simp [MenuRequestHandler.isRequestRelevant, hexit]), hexit]
      exact Returns.bind fun _ => rfl
  | roomMember roomUuid roomName user =>
      show (RoomMemberRequestHandler.handleRequest roomUuid roomName user request).Returns _
      unfold RoomMemberRequestHandler.handleRequest
      dsimp only
      rw [if_neg (by simp [RoomMemberRequestHandler.isRequestRelevant, hexit]), hexit]
      exact Returns.bind fun _ =>
        RoomMemberRequestHandler.leaveRoom_outside roomUuid roomName user
  | roomAdmin room user =>
      show (RoomAdminRequestHandler.handleRequest room user request).Returns _
      unfold RoomAdminRequestHandler.handleRequest
      rw [if_neg (by simp [RoomAdminRequestHandler.isRequestRelevant, hexit]), hexit]
      exact Returns.bind fun _ => RoomAdminRequestHandler.closeRoom_outside room user
  | game g user =>
      show (GameRequestHandler.handleRequest P g user request).Returns _
      unfold GameRequestHandler.handleRequest
      rw [if_neg (by simp [GameRequestHandler.isRequestRelevant, hexit]), hexit]
      exact Returns.bind fun _ => GameRequestHandler.leaveGame_outside g user

/-! ## Runs -/

/-- The room uuids generated so far. -/
def generated (trace : ServerTrace) : List String :=
  trace.filterMap fun e =>
    match e.2 with
    | .called ⟨.room .generateRoomUUID, uuid⟩ => some uuid
    | _ => none

/-- Room uuids never repeat. -/
def FreshRooms (cfg : ServerConfig) : AtomicServerLabel → Prop
  | .connect _ => True
  | .request _ _ _ calls => ∀ uuid ∈ uuidsOf calls, uuid ∉ generated cfg.trace

instance {cfg : ServerConfig} : DecidablePred (FreshRooms cfg)
  | .connect _ => .isTrue trivial
  | .request .. => inferInstanceAs (Decidable (∀ _ ∈ _, _))

section Runs

variable {cfg cfg' : ServerConfig} {l : AtomicServerLabel}

theorem seatOf_idle {c : ℕ} {session : Session} (hc : cfg.clients c = .idle session) :
    seatOf cfg c = session.handler.seat := by
  rw [seatOf, hc]

theorem idle_of_seat {c : ℕ} (h : seatOf cfg c ≠ .outside) :
    ∃ session, cfg.clients c = .idle session ∧ session.handler.seat = seatOf cfg c := by
  unfold seatOf at h ⊢
  split at h
  · next session hc => exact ⟨session, hc, rfl⟩
  · exact absurd rfl h

theorem Handler.name_of_seat {h : Handler} {user : LoggedUser} (hs : h.seat.user = some user) :
    h.name = some user.username := by
  cases h <;> cases hs <;> rfl

theorem idle_of_user {c : ℕ} {user : LoggedUser} (h : (seatOf cfg c).user = some user) :
    ∃ session, cfg.clients c = .idle session ∧ session.handler.name = some user.username := by
  have hne : seatOf cfg c ≠ .outside := fun hout => by
    rw [hout] at h
    cases h
  obtain ⟨session, hc, hseat⟩ := idle_of_seat hne
  exact ⟨session, hc, Handler.name_of_seat (hseat ▸ h)⟩

/-- What an atomic step does to the seats. -/
inductive SeatStep (P : Platform) (cfg : ServerConfig) : AtomicServerLabel → ServerConfig → Prop
  | connected {c cfg'} : cfg'.shared = cfg.shared → cfg'.trace = cfg.trace →
      seatOf cfg' = seatOf cfg → SeatStep P cfg (.connect c) cfg'
  | moved {c session request sent t r cfg'} : cfg.clients c = .idle session →
      Exec (machine true) (session.handler.handleRequest P request) cfg.shared t r cfg'.shared →
      Move cfg.shared t cfg'.shared (seatOf cfg c) r.handler.seat →
      seatOf cfg' = Function.update (seatOf cfg) c r.handler.seat →
      cfg'.trace = cfg.trace ++ ((c, .received session request) :: t.map fun e => (c, .called e)) ++
        [(c, .finished session request r ((handleClient P).next request r sent))] →
      SeatStep P cfg (.request c request sent t) cfg'

theorem seatStep (hkeyed : Keyed cfg.shared)
    (hstep : Service.AtomicStep (handleClient P) (machine true) cfg l cfg') :
    SeatStep P cfg l cfg' := by
  cases hstep with
  | @connect c hc =>
      refine .connected rfl rfl (funext fun c' => ?_)
      by_cases hcc : c' = c
      · subst hcc
        simp only [seatOf, Function.update_self, hc]
        rfl
      · simp only [seatOf, Function.update_of_ne hcc]
  | @request c session request sent t r s' hc _ hx =>
      have hmove : Move cfg.shared t s' session.handler.seat r.handler.seat :=
        hx.of_wp (Handler.handleRequest_moves hkeyed session.handler request)
      refine .moved hc hx (seatOf_idle hc ▸ hmove) (funext fun c' => ?_) rfl
      by_cases hcc : c' = c
      · subst hcc
        simp only [seatOf, Function.update_self]
        by_cases hexit : request.requestId = .exit
        · have hout : r.handler.seat = .outside := hx.of_returns (exit_outside _ hexit)
          rw [hout]
          simp [handleClient, hexit, Service.resting]
        · cases sent <;> simp [handleClient, hexit, Service.resting, Session.handler]
      · simp only [seatOf, Function.update_of_ne hcc]

variable {database : Database} {K : ServerConfig → AtomicServerLabel → Prop}

theorem distinct_of_run (hrun : Service.AtomicReachable (handleClient P) (machine true) K
    (ServerConfig.init database) cfg) : Distinct (seatOf cfg) := by
  intro c c' user hc hc'
  obtain ⟨session, hc, hname⟩ := idle_of_user hc
  obtain ⟨session', hc', hname'⟩ := idle_of_user hc'
  exact one_handler_of_name hrun.reachable hc hc' hname hname'

theorem seats_named_of_run (hrun : Service.AtomicReachable (handleClient P) (machine true) K
    (ServerConfig.init database) cfg) (c : ℕ) (user : LoggedUser)
    (hc : (seatOf cfg c).user = some user) : user.username ∈ cfg.shared.names := by
  obtain ⟨session, hc, hname⟩ := idle_of_user hc
  exact holdersNamed_of_run hrun c session hc _ hname

theorem Lobby.init (database : Database) :
    Lobby (.init database) (seatOf (ServerConfig.init database)) := by
  have hseat : ∀ c, seatOf (ServerConfig.init database) c = .outside := fun c => rfl
  refine ⟨fun uuid => ?_, List.nodup_nil, nofun⟩
  have hnone : (Managers.init database).rooms[uuid]? = none := Std.TreeMap.getElem?_emptyc
  rw [hnone]
  exact .empty fun c user => hseat c ▸ nofun

theorem lobby_of_run (hrun : Service.AtomicReachable (handleClient P) (machine true) K
    (ServerConfig.init database) cfg) : Lobby cfg.shared (seatOf cfg) := by
  refine hrun.along (I := fun cfg => Lobby cfg.shared (seatOf cfg)) (Lobby.init database) ?_
  intro cfg l cfg' hrun h _ hstep
  cases seatStep h.keyed hstep with
  | connected hshared _ hseats =>
      rw [hshared, hseats]
      exact h
  | @moved c _ _ _ _ _ _ _ _ hmove hseats _ =>
      rw [hseats]
      exact h.move (distinct_of_run hrun) (seats_named_of_run hrun c) hmove

/-- What holds of the seats in every state of a run. -/
structure SeatsFit (cfg : ServerConfig) : Prop where
  lobby : Lobby cfg.shared (seatOf cfg)
  one_handler : ∀ c c' session session' name, cfg.clients c = .idle session →
    cfg.clients c' = .idle session' → session.handler.name = some name →
    session'.handler.name = some name → c = c'
  distinct : Distinct (seatOf cfg)
  named : ∀ c user, (seatOf cfg c).user = some user → user.username ∈ cfg.shared.names

theorem seatsFit_of_run (hrun : Service.AtomicReachable (handleClient P) (machine true) K
    (ServerConfig.init database) cfg) : SeatsFit cfg :=
  ⟨lobby_of_run hrun, fun _ _ _ _ _ hc hc' => one_handler_of_name hrun.reachable hc hc',
    distinct_of_run hrun, seats_named_of_run hrun⟩

/-- An induction along a run with what is known of the seats around each step. -/
theorem seats_along {I : ServerConfig → Prop} (hrun : Service.AtomicReachable (handleClient P)
      (machine true) K (ServerConfig.init database) cfg) (h₀ : I (ServerConfig.init database))
    (hstep : ∀ cfg l cfg', SeatsFit cfg → SeatsFit cfg' → I cfg → K cfg l →
      SeatStep P cfg l cfg' → I cfg') : I cfg := by
  refine hrun.along h₀ fun cfg l cfg' hrun h hk hs => ?_
  have hfit := seatsFit_of_run hrun
  have hnext := seatsFit_of_run (hrun.tail ⟨l, hk, hs⟩)
  exact hstep cfg l cfg' hfit hnext h hk (seatStep hfit.lobby.keyed hs)

end Runs

end TriviaServer
