import TriviaServer.Interaction.History
import TriviaServer.Verification.Replays
import TriviaServer.Verification.Requests

/-! # Leaving a game

LEAVE_GAME takes the player out of the game and then, unless the leaver's own booking fails,
out of the room. Which of the calls of the database decide about that is read off the calls
between the readings of the clock. -/

namespace TriviaServer

open Interaction

variable {d : Bool} {s : Managers}

/-! ## The calls of the leaver's own booking -/

/-- A reading of the clock by `isFinished`. -/
def isReading (e : Event operations) : Bool :=
  match e.1 with
  | .game (.isFinished _) => true
  | _ => false

/-- An answer of the database that makes `submitGameStatistics` return an error. -/
def refused (e : Event operations) : Bool :=
  match e with
  | ⟨.database (.selectStatistics _), none⟩ => true
  | ⟨.database (.selectStatistics _), some []⟩ => true
  | ⟨.database (.updateStatistics _), none⟩ => true
  | _ => false

/-- The leaver is booked between the third and the fourth reading of a LEAVE_GAME. -/
def ownBooking (t : List (Event operations)) : List (Event operations) := segment isReading 3 t

theorem ownBooking_cons (g : String) (b : Bool) (t : List (Event operations)) :
    ownBooking (event (.game (.isFinished g)) b :: t) = segment isReading 2 t :=
  segment_cons 2 rfl

/-- A booking returns an error exactly if one of its calls is refused. -/
theorem wp_submitGameStatistics_refused {data : GameData} {name : String}
    {Q : List (Event operations) → Option Error → Managers → Prop}
    (h : ∀ t r s', (∀ e ∈ t, isReading e = false) →
      (r = none ↔ ∀ e ∈ t, refused e = false) → Q t r s') :
    wp (machine d) (fun _ => True) (SqliteDatabase.submitGameStatistics data name) Q s := by
  unfold SqliteDatabase.submitGameStatistics SqliteDatabase.getUserStatistics
  simp only [wp_bind]
  refine wp_answer fun row s₁ => ?_
  match row with
  | none => exact h _ _ _ (by simp [isReading]) (by simp [refused, event])
  | some [] => exact h _ _ _ (by simp [isReading]) (by simp [refused, event])
  | some (stats :: rest) =>
      simp only [wp_pure, wp_bind]
      refine (wp_lift _ _).mpr ?_
      cases SqliteDatabase.newAverage (SqliteDatabase.toUserStatistics stats.1) data with
      | error e => trivial
      | ok average =>
          rw [ensures_ok]
          refine wp_answer fun updated s₂ => ?_
          cases updated with
          | none => exact h _ _ _ (by simp [isReading]) (by simp [refused, event])
          | some u => exact h _ _ _ (by simp [isReading]) (by simp [refused, event])

theorem wp_punishLeaver_reading {g : String} {user : LoggedUser}
    {Q : List (Event operations) → Unit → Managers → Prop}
    (h : ∀ b t s', (∀ e ∈ t, isReading e = false) →
      Q (event (.game (.isFinished g)) b :: t) () s') :
    wp (machine d) (fun _ => True) (GameManager.punishLeaver g user) Q s := by
  unfold GameManager.punishLeaver
  simp only [wp_bind]
  refine wp_answer fun b s₁ => ?_
  cases b with
  | true => exact h true [] s₁ (by simp)
  | false => exact wp_answer fun _ s₂ => h false _ s₂ (by simp [isReading])

theorem wp_submitIfFinished_reading {g : String}
    {Q : List (Event operations) → Unit → Managers → Prop}
    (h : ∀ b t s', Q (event (.game (.isFinished g)) b :: t) () s') :
    wp (machine d) (fun _ => True) (GameManager.submitIfFinished g) Q s := by
  unfold GameManager.submitIfFinished
  simp only [wp_bind]
  exact wp_answer fun b s₁ => wp_anything fun t _ s₂ => h b t s₂

theorem wp_submitLeaver_refused {g : String} {user : LoggedUser}
    {Q : List (Event operations) → Option Error → Managers → Prop}
    (h : ∀ b t r s', (∀ e ∈ t, isReading e = false) →
      (r = none ↔ ∀ e ∈ t, refused e = false) → Q (event (.game (.isFinished g)) b :: t) r s') :
    wp (machine d) (fun _ => True) (GameManager.submitLeaver g user) Q s := by
  unfold GameManager.submitLeaver
  simp only [wp_bind]
  refine wp_answer fun b s₁ => ?_
  cases b with
  | true => exact h true [] none s₁ (by simp) (by simp)
  | false =>
      simp only [Bool.not_false, if_true, wp_bind]
      refine wp_answer fun _ s₂ => wp_answer fun results s₃ => ?_
      cases results[user]? with
      | none => exact (wp_throw _ _).mpr trivial
      | some data =>
          simp only [wp_bind]
          refine wp_answer fun _ s₄ => ?_
          refine wp_submitGameStatistics_refused fun t r s₅ hread hr => ?_
          refine h false _ r s₅ ?_ ?_
          · simpa [isReading] using hread
          · simpa [refused, event] using hr

/-- Removing a player returns an error exactly if a call of the player's own booking, between
the second and the third reading, is refused. -/
theorem wp_removePlayerFromGame_refused {g : String} {user : LoggedUser}
    {Q : List (Event operations) → Option Error → Managers → Prop}
    (h : ∀ t r s', (∀ rest, r = none ↔ ∀ e ∈ segment isReading 2 (t ++ rest), refused e = false) →
      Q t r s') :
    wp (machine d) (fun _ => True) (GameManager.removePlayerFromGame g user) Q s := by
  unfold GameManager.removePlayerFromGame
  simp only [wp_bind]
  refine wp_punishLeaver_reading fun b₁ t₁ s₁ hread₁ => wp_answer fun u s₂ => ?_
  refine wp_submitLeaver_refused fun b₂ t₂ r s₃ hread₂ hr => ?_
  refine wp_submitIfFinished_reading fun b₃ t₃ s₄ => wp_anything fun t₄ _ s₅ => h _ r s₅ ?_
  intro rest
  have hremoved : ∀ e ∈ t₁ ++ [event (.game (.removePlayer g user)) u], isReading e = false := by
    simpa [or_imp, forall_and, isReading] using hread₁
  have hsegment : segment isReading 2 ((event (.game (.isFinished g)) b₁ :: t₁) ++
      ([event (.game (.removePlayer g user)) u] ++ (event (.game (.isFinished g)) b₂ :: t₂ ++
        (event (.game (.isFinished g)) b₃ :: t₃ ++ (t₄ ++ [])))) ++ rest) = t₂ := by
    simp only [List.append_assoc, List.cons_append, List.nil_append]
    rw [segment_cons 1 rfl, List.append_cons, segment_succ 0 hremoved rfl, segment_zero hread₂ rfl]
  rw [hsegment]
  exact hr

/-! ## Out of the game and out of the room -/

/-- The connection is back in the menu, and its user neither plays the game nor is listed in
the game's room. -/
structure TakenOut (g : String) (user : LoggedUser) (r : RequestResult) (s' : Managers) : Prop where
  handler : r.handler = .menu user
  game : ∀ gm, s'.game? g = some gm → user ∉ gm.onlinePlayers
  room : ∀ room, s'.rooms[g]? = some room → user ∉ room.users

theorem depart_online {g : String} {user : LoggedUser} {gm : Game} {clock : ℕ}
    {players : Std.TreeMap LoggedUser GameData} {database : Database} :
    ∀ gm' ∈ (s.depart g user gm clock players database).games, gm'.uuid = g →
      user ∉ gm'.onlinePlayers := by
  have hreplaced : ∀ gm' ∈ (s.setGame g ((gm.removePlayer user).setPlayers players)).games,
      gm'.uuid = g → user ∉ gm'.onlinePlayers := by
    intro gm' hgm' huuid
    obtain ⟨old, -, rfl⟩ := List.mem_map.mp hgm'
    split_ifs at huuid ⊢ with hold
    · intro hmem
      simpa using (List.mem_filter.mp hmem).2
    · exact absurd huuid hold
  unfold Managers.depart
  simp only
  split
  · exact fun gm' hgm' => hreplaced gm' (List.mem_of_mem_eraseP hgm')
  · exact hreplaced

/-- Leaving a game takes the player out of everything exactly if the player was not listed in the
room or no call of the player's own booking is refused. -/
theorem leaveGame_takesOut_iff {P : Platform} {g : String} {user : LoggedUser}
    {body : List UInt8} {s s' : Managers} {t : List (Event operations)} {r : RequestResult}
    (hx : Exec (machine false) ((Handler.game g user).handleRequest P ⟨.leaveGameRequest, body⟩)
      s t r s') :
    TakenOut g user r s' ↔ (∀ room, s.rooms[g]? = some room → user ∉ room.users) ∨
      ∀ e ∈ ownBooking t, refused e = false := by
  have hx : Exec (machine false) (GameRequestHandler.leaveGame g user) s t r s' := hx
  refine hx.of_wp (E := fun _ => True) (Q := fun t r s' => TakenOut g user r s' ↔
    (∀ room, s.rooms[g]? = some room → user ∉ room.users) ∨
      ∀ e ∈ ownBooking t, refused e = false) ?_
  unfold GameRequestHandler.leaveGame
  simp only [wp_bind]
  cases hg : s.game? g with
  | none => exact wp_isFinished_none hg trivial
  | some gm =>
      refine wp_isFinished hg fun now hnow => ?_
      refine wp_of_exec fun t₁ removed s₁ hremove => ?_
      have hstate : s₁.rooms = s.rooms ∧ ∀ gm', s₁.game? g = some gm' → user ∉ gm'.onlinePlayers :=
        hremove.of_wp (E := fun _ => True) (Q := fun _ _ s₁ => s₁.rooms = s.rooms ∧
          ∀ gm', s₁.game? g = some gm' → user ∉ gm'.onlinePlayers)
          (wp_removePlayerFromGame (s := s.setClock now) hg (fun _ _ => trivial) trivial
            fun k₁ k₂ k₃ players db t r _ => ⟨depart_rooms, fun gm' hgm' =>
              depart_online gm' (List.mem_of_find?_eq_some hgm') (game?_uuid hgm')⟩)
      have hremoved := hremove.of_wp (wp_removePlayerFromGame_refused fun t r s' hr => hr)
      obtain ⟨hrooms, honline⟩ := hstate
      simp only [List.singleton_append, ownBooking_cons]
      cases removed with
      | some e =>
          have hrefused : ¬ ∀ e ∈ segment isReading 2 (t₁ ++ []), refused e = false := fun h =>
            nomatch (hremoved []).mpr h
          refine ⟨fun h => .inl fun room hroom => h.room room (hrooms ▸ hroom), ?_⟩
          rintro (h | h)
          · exact ⟨rfl, honline, fun room hroom => h room (hrooms ▸ hroom)⟩
          · exact absurd h hrefused
      | none =>
          simp only [wp_bind]
          refine wp_removePlayerFromRoom (fun _ => trivial) fun t₂ room s₂ _ _ _ hs₂ hchanged => ?_
          have hgames : s₂.games = s₁.games := by rw [hs₂]
          refine iff_of_true ⟨rfl, fun gm' hgm' => honline gm' ?_, fun room' hroom' => ?_⟩
            (.inr ((hremoved _).mp rfl))
          · rw [Managers.game?, hgames] at hgm'
            exact hgm'
          · rw [hchanged g, if_pos rfl] at hroom'
            split_ifs at hroom'
            cases hroom'
            exact fun hmem => by simpa using (List.mem_filter.mp hmem).2

/-- The data of a connection that waits for its next request. -/
def sessionOf (cfg : ServerConfig) (c : ℕ) : Option Session :=
  match cfg.clients c with
  | .idle session => some session
  | _ => none

/-- In a game of two `ann` leaves with these outcomes of her calls. -/
def annLeaves (outcomes : List Choice) :
    Option (ServerConfig × List (Event operations) × RequestResult × Managers) :=
  match replayAtomic lobbyPlatform sampleDatabase pairInGame with
  | none => none
  | some cfg =>
      (interpreter.run (Op.admits false)
        ((Handler.game "room" ⟨"ann"⟩).handleRequest lobbyPlatform ⟨.leaveGameRequest, []⟩)
        outcomes cfg.shared).map fun out => (cfg, out)

theorem annLeaves_spec {outcomes : List Choice} {cfg : ServerConfig}
    {t : List (Event operations)} {r : RequestResult} {s' : Managers}
    (h : annLeaves outcomes = some (cfg, t, r, s')) :
    AtomicRun lobbyPlatform (fun _ _ => True) cfg ∧ Exec (machine false)
      ((Handler.game "room" ⟨"ann"⟩).handleRequest lobbyPlatform ⟨.leaveGameRequest, []⟩)
      cfg.shared t r s' := by
  unfold annLeaves at h
  split at h
  · cases h
  · next hcfg =>
      obtain ⟨out, hout, heq⟩ := Option.map_eq_some_iff.mp h
      cases heq
      exact ⟨atomicRun_of_replay hcfg fun _ _ _ => trivial, Interpreter.exec_of_run hout⟩

/-- All calls go well. -/
theorem leaveGame_takesOut_usual : ∃ cfg t r s', AtomicRun lobbyPlatform (fun _ _ => True) cfg ∧
    Exec (machine false)
      ((Handler.game "room" ⟨"ann"⟩).handleRequest lobbyPlatform ⟨.leaveGameRequest, []⟩)
      cfg.shared t r s' ∧ TakenOut "room" ⟨"ann"⟩ r s' := by
  have hrun : ((annLeaves (List.replicate 16 usual)).any fun out =>
      (ownBooking out.2.1).all fun e => !refused e) = true := by decide +kernel
  obtain ⟨⟨cfg, t, r, s'⟩, hout, hbooked⟩ := (Option.any_eq_true _ _).mp hrun
  obtain ⟨hcfg, hx⟩ := annLeaves_spec hout
  refine ⟨cfg, t, r, s', hcfg, hx, (leaveGame_takesOut_iff hx).mpr (.inr ?_)⟩
  simpa using hbooked

/-- The write of `ann`'s own statistics fails: she is in the menu and still in the room's list. -/
theorem not_takenOut_unbooked : ∃ cfg t r s', AtomicRun lobbyPlatform (fun _ _ => True) cfg ∧
    sessionOf cfg 0 = some (.waiting (.game "room" ⟨"ann"⟩)) ∧
    (∃ gm, cfg.shared.game? "room" = some gm ∧ ⟨"ann"⟩ ∈ gm.onlinePlayers) ∧
    Exec (machine false)
      ((Handler.game "room" ⟨"ann"⟩).handleRequest lobbyPlatform ⟨.leaveGameRequest, []⟩)
      cfg.shared t r s' ∧ ¬ TakenOut "room" ⟨"ann"⟩ r s' := by
  have hrun : ((annLeaves (List.replicate 9 usual ++ [failing, usual, usual])).any fun out =>
      sessionOf out.1 0 = some (.waiting (.game "room" ⟨"ann"⟩)) &&
      ((out.1.shared.game? "room").any fun gm => ⟨"ann"⟩ ∈ gm.onlinePlayers) &&
      (out.2.2.2.rooms["room"]?.any fun room => ⟨"ann"⟩ ∈ room.users)) = true := by
    decide +kernel
  obtain ⟨⟨cfg, t, r, s'⟩, hout, hcheck⟩ := (Option.any_eq_true _ _).mp hrun
  obtain ⟨hcfg, hx⟩ := annLeaves_spec hout
  simp only [Bool.and_eq_true, decide_eq_true_iff, Option.any_eq_true] at hcheck
  obtain ⟨⟨hsession, hgame⟩, room, hroom, hlisted⟩ := hcheck
  exact ⟨cfg, t, r, s', hcfg, hsession, hgame, hx, fun hout => hout.room room hroom hlisted⟩

end TriviaServer
