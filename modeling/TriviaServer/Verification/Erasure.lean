import Mathlib.Data.Fintype.Basic
import TriviaServer.Interaction.Discipline
import TriviaServer.Verification.Departure
import TriviaServer.Verification.Questions
import TriviaServer.Verification.Replays

/-! # Concurrent departures from a game

`removePlayerFromGame` removes the player, tests whether anybody is left, and erases the game,
in three locked sections. The game is erased once, and nobody uses it afterwards, if the last
player is removed while no other departure is between its removal and its test. -/

namespace TriviaServer

open Interaction

variable {d : Bool} {g : String} {s s' : Managers}

/-! ## One call of `removePlayerFromGame` -/

/-- Where a departure is: before and behind the removal, and behind a test that found the game
empty or not. -/
inductive DepartureStanding where
  | fresh
  | called (user : LoggedUser)
  | removed
  | last
  | done
  deriving DecidableEq

namespace DepartureStanding

def observe (st : DepartureStanding)
    (o : Observation operations Unit LoggedUser (Option Error)) : DepartureStanding :=
  match st, o with
  | fresh, .received _ user => called user
  | called _, .called ⟨.game (.removePlayer ..), _⟩ => removed
  | removed, .called ⟨.game (.getOnlinePlayers _), online⟩ =>
      if (online : List LoggedUser).isEmpty then last else done
  | last, .called ⟨.game (.eraseGame _), _⟩ => done
  | st, _ => st

/-- The departure has its test still to make. -/
def Untested : DepartureStanding → Prop
  | called _ => True
  | removed => True
  | _ => False

/-- The player of the departure is not removed yet. -/
def Present : DepartureStanding → Prop
  | fresh => True
  | called _ => True
  | _ => False

end DepartureStanding

/-- A departure removes its player, tests, and erases the game if the test found it empty; all
its other operations come before the test. -/
def departureDiscipline (g : String) :
    Discipline operations Unit LoggedUser (Option Error) DepartureStanding where
  initial := .fresh
  observe := DepartureStanding.observe
  allowed st o :=
    match o with
    | .game (.removePlayer id user) => id = g ∧ st = .called user
    | .game (.getOnlinePlayers id) => id = g ∧ st = .removed
    | .game (.eraseGame id) => id = g ∧ st = .last
    | o => o.Works g ∧ st.Untested
  assumed _ _ := True
  mayFinish st _ _ _ := st = .done

theorem departureDiscipline_observe (g : String) :
    (departureDiscipline g).observe = DepartureStanding.observe := rfl

/-- Calls of `removePlayerFromGame` for one game, each with its player. -/
def departures (g : String) : Service operations Unit LoggedUser (Option Error) Unit :=
  Service.pool fun user => GameManager.removePlayerFromGame g user

theorem DepartureStanding.neutralAt_of_works {st : DepartureStanding} (hst : st.Untested) {o : Op}
    (ho : o.Works g) : (departureDiscipline g).NeutralAt st o := by
  cases o with
  | login | room => exact (ho.elim id id).elim
  | database | external => exact ⟨⟨ho, hst⟩, fun _ => by cases st <;> rfl⟩
  | game o =>
      cases o with
      | removePlayer | getOnlinePlayers | eraseGame => exact (ho.elim id id).elim
      | _ => exact ⟨⟨ho, hst⟩, fun _ => by cases st <;> rfl⟩

/-- A departure uses the game only between its start and its end. -/
theorem DepartureStanding.ne_of_allowed {st : DepartureStanding} {o : GameOp}
    (h : (departureDiscipline g).allowed st (.game o)) : st ≠ .fresh ∧ st ≠ .done := by
  have huntested : st.Untested → st ≠ .fresh ∧ st ≠ .done := by
    cases st <;> simp [Untested]
  cases o with
  | removePlayer | getOnlinePlayers | eraseGame =>
      obtain ⟨-, rfl⟩ := h
      simp
  | _ => exact huntested h.2

/-- The part of a departure between its removal and its test, and before its removal. -/
theorem wp_works {α : Type} {p : Action α} (hp : p.Only (Op.Works g)) {st : DepartureStanding}
    (hst : st.Untested) {Q : List (Event operations) → α → DepartureStanding → Prop}
    (h : ∀ t a, Q t a st) : wp (departureDiscipline g).machine (fun _ => False) p Q st :=
  Discipline.wp_neutralAt (hp.mono fun _ => DepartureStanding.neutralAt_of_works hst) h

theorem departures_obey (g : String) :
    (departureDiscipline g).ObeyedBy (departures g) (fun _ st => st = .fresh)
      fun st => st = .done where
  start := rfl
  serve := by
    rintro _ user _ - rfl
    show wp _ _ (GameManager.removePlayerFromGame g user) _ (DepartureStanding.called user)
    unfold GameManager.removePlayerFromGame GameManager.eraseIfEmpty
    simp only [wp_bind]
    refine wp_works (GameManager.works_punishLeaver user) (by trivial) fun _ _ => ?_
    refine Discipline.wp_call (D := departureDiscipline g) ⟨rfl, rfl⟩ fun _ _ => ?_
    show wp _ _ _ _ DepartureStanding.removed
    refine wp_works (GameManager.works_submitLeaver user) (by trivial) fun _ _ => ?_
    refine wp_works GameManager.works_submitIfFinished (by trivial) fun _ _ => ?_
    refine Discipline.wp_call (D := departureDiscipline g) ⟨rfl, rfl⟩ fun online _ => ?_
    have htest : (departureDiscipline g).observe .removed
        (.called ⟨.game (.getOnlinePlayers g), online⟩) =
        if (online : List LoggedUser).isEmpty then .last else .done := rfl
    rw [htest]
    cases (online : List LoggedUser).isEmpty with
    | true =>
        refine Discipline.wp_call (D := departureDiscipline g) ⟨rfl, rfl⟩ fun _ _ => ?_
        exact ⟨rfl, fun _ => rfl⟩
    | false => exact ⟨rfl, fun _ => rfl⟩

theorem setPlayers_keeps {gm : Game} (hg : s.game? g = some gm)
    (players : Std.TreeMap LoggedUser GameData) :
    (s.setGame g (gm.setPlayers players)).games.map Game.uuid = s.games.map Game.uuid ∧
      ∀ gm₁, s.game? g = some gm₁ →
        ∃ gm₂, (s.setGame g (gm.setPlayers players)).game? g = some gm₂ ∧
          gm₂.onlinePlayers = gm₁.onlinePlayers := by
  have huuid : (gm.setPlayers players).uuid = g := show gm.uuid = g from game?_uuid hg
  refine ⟨map_uuid_replace _ _ huuid, fun gm₁ hg₁ => ?_⟩
  obtain rfl : gm = gm₁ := Option.some.inj (hg.symm.trans hg₁)
  exact ⟨_, game?_setGame hg huuid, rfl⟩

/-- The other operations of a departure leave the game and its online players where they are. -/
theorem Op.Works.step {o : Op} {r : o.Answer} (ho : o.Works g) (hs : (machine d).Step o s r s') :
    s'.games.map Game.uuid = s.games.map Game.uuid ∧ ∀ gm, s.game? g = some gm →
      ∃ gm', s'.game? g = some gm' ∧ gm'.onlinePlayers = gm.onlinePlayers := by
  cases o with
  | login | room => exact (ho.elim id id).elim
  | database o =>
      obtain ⟨_, _, -, -, rfl⟩ := DbOp.step_eq hs
      exact ⟨rfl, fun gm hg => ⟨gm, hg, rfl⟩⟩
  | external o =>
      rw [ExternalOp.step_eq hs]
      exact ⟨rfl, fun gm hg => ⟨gm, hg, rfl⟩⟩
  | game o =>
      have ho := ho.resolve_left id
      obtain ⟨choice, -, hx⟩ := hs
      cases o with
      | isFinished id =>
          obtain ⟨rfl, -⟩ := readGame_ok hx
          exact ⟨rfl, fun gm hg => ⟨gm, hg, rfl⟩⟩
      | getPlayersResults id =>
          obtain ⟨rfl, -⟩ := readGame_ok hx
          exact ⟨rfl, fun gm hg => ⟨gm, hg, rfl⟩⟩
      | getGameById id =>
          simp only [Op.exec, GameOp.exec] at hx
          split_ifs at hx
          cases hx
          exact ⟨rfl, fun gm hg => ⟨gm, hg, rfl⟩⟩
      | submitting =>
          cases hx
          exact ⟨rfl, fun gm hg => ⟨gm, hg, rfl⟩⟩
      | punishPlayer id user =>
          obtain rfl : id = g := ho
          obtain ⟨gm, gm', hg, hr, rfl⟩ := writeGame_ok hx
          obtain ⟨data, -, rfl⟩ := updatePlayer_ok hr
          exact setPlayers_keeps hg _
      | markUserResultsAsSubmittedToDB id user =>
          obtain rfl : id = g := ho
          obtain ⟨gm, gm', hg, hr, rfl⟩ := writeGame_ok hx
          obtain ⟨data, -, rfl⟩ := updatePlayer_ok hr
          exact setPlayers_keeps hg _
      | _ => exact ho.elim

/-! ## The phases of a run -/

section Phases

/-- Somebody is online; or one departure has removed the last player and has still to erase the
game; or the game is erased. The number counts the erasures. -/
inductive Phase (g : String) (players : List LoggedUser) (s : Managers)
    (standing : LoggedUser → DepartureStanding) : ℕ → Prop where
  | running (gm : Game) (hg : s.game? g = some gm) (hnodup : (s.games.map Game.uuid).Nodup)
      (hne : players ≠ [] → gm.onlinePlayers ≠ [])
      (honline : ∀ p, p ∈ gm.onlinePlayers ↔ p ∈ players ∧ (standing p).Present)
      (hlast : ∀ p ∈ players, standing p ≠ .last) : Phase g players s standing 0
  | closing (gm : Game) (c : LoggedUser) (hg : s.game? g = some gm)
      (hnodup : (s.games.map Game.uuid).Nodup) (hempty : gm.onlinePlayers = [])
      (hc : c ∈ players) (hst : standing c = .removed ∨ standing c = .last)
      (hothers : ∀ p ∈ players, p ≠ c → standing p = .done) : Phase g players s standing 0
  | closed (hg : s.game? g = none) (hdone : ∀ p ∈ players, standing p = .done) :
      Phase g players s standing 1

/-- The departures of the players, with the phase they have brought the game to. -/
structure Departing (g : String) (players : List LoggedUser) (s : Managers)
    (standing : LoggedUser → DepartureStanding) (erasures : ℕ) : Prop where
  outside : ∀ p, p ∉ players → standing p = .fresh
  own : ∀ p user, standing p = .called user → user = p
  phase : Phase g players s standing erasures

theorem game?_none_iff : s.game? g = none ↔ g ∉ s.games.map Game.uuid := by
  simp [Managers.game?]

namespace Departing

variable {players : List LoggedUser} {standing : LoggedUser → DepartureStanding} {erasures : ℕ}
  {c : LoggedUser}

theorem start {gm : Game} (hg : s.game? g = some gm) (hnodup : (s.games.map Game.uuid).Nodup) :
    Departing g gm.onlinePlayers s (fun _ => .fresh) 0 where
  outside _ _ := rfl
  own _ _ := nofun
  phase := .running gm hg hnodup id (fun _ => by simp [DepartureStanding.Present]) fun _ _ => nofun

theorem mem (h : Departing g players s standing erasures) (hc : standing c ≠ .fresh) :
    c ∈ players :=
  Classical.byContradiction fun hnot => hc (h.outside c hnot)

/-- While a departure is neither new nor done, the game is there. -/
theorem game (h : Departing g players s standing erasures) (hfresh : standing c ≠ .fresh)
    (hdone : standing c ≠ .done) : ∃ gm, s.game? g = some gm := by
  cases h.phase with
  | running gm hg => exact ⟨gm, hg⟩
  | closing gm _ hg => exact ⟨gm, hg⟩
  | closed _ hall => exact absurd (hall c (h.mem hfresh)) hdone

/-- A step that leaves the online players and the list of games as they are. -/
theorem same (h : Departing g players s standing erasures)
    (huuid : s'.games.map Game.uuid = s.games.map Game.uuid)
    (honline : ∀ gm, s.game? g = some gm →
      ∃ gm', s'.game? g = some gm' ∧ gm'.onlinePlayers = gm.onlinePlayers) :
    Departing g players s' standing erasures where
  outside := h.outside
  own := h.own
  phase := by
    cases h.phase with
    | running gm hg hnodup hne hpresent hlast =>
        obtain ⟨gm', hg', heq⟩ := honline gm hg
        exact .running gm' hg' (huuid ▸ hnodup) (heq ▸ hne) (heq ▸ hpresent) hlast
    | closing gm c hg hnodup hempty hc hst hothers =>
        obtain ⟨gm', hg', heq⟩ := honline gm hg
        exact .closing gm' c hg' (huuid ▸ hnodup) (heq ▸ hempty) hc hst hothers
    | closed hg hdone =>
        refine .closed ?_ hdone
        rw [game?_none_iff] at hg ⊢
        rwa [huuid]

/-- What an update of one player's standing keeps of the others. -/
theorem outside_update (h : Departing g players s standing erasures) (hc : c ∈ players)
    (st : DepartureStanding) : ∀ p, p ∉ players → Function.update standing c st p = .fresh := by
  intro p hp
  have hpc : p ≠ c := fun heq => hp (heq.symm ▸ hc)
  rw [Function.update_of_ne hpc]
  exact h.outside p hp

theorem own_update (h : Departing g players s standing erasures) {st : DepartureStanding}
    (hst : ∀ user, st = .called user → user = c) :
    ∀ p user, Function.update standing c st p = .called user → user = p := by
  intro p user hp
  by_cases hpc : p = c
  · subst hpc
    rw [Function.update_self] at hp
    exact hst user hp
  · rw [Function.update_of_ne hpc] at hp
    exact h.own p user hp

/-- The departure of a player begins. -/
theorem receive (h : Departing g players s standing erasures) (hc : c ∈ players)
    (hst : standing c = .fresh) :
    Departing g players s (Function.update standing c (.called c)) erasures where
  outside := h.outside_update hc _
  own := h.own_update fun user heq => by cases heq; rfl
  phase := by
    cases h.phase with
    | running gm hg hnodup hne hpresent hlast =>
        refine .running gm hg hnodup hne (fun p => ?_) fun p hp => ?_
        · rw [hpresent]
          by_cases hpc : p = c
          · subst hpc
            rw [Function.update_self, hst]
            rfl
          · rw [Function.update_of_ne hpc]
        · by_cases hpc : p = c
          · subst hpc
            rw [Function.update_self]
            exact nofun
          · rw [Function.update_of_ne hpc]
            exact hlast p hp
    | closing gm c' hg hnodup hempty hc' hst' hothers =>
        by_cases hcc : c = c'
        · subst hcc
          rw [hst] at hst'
          exact nomatch hst'
        · exact nomatch hst.symm.trans (hothers c hc hcc)
    | closed hg hdone => exact nomatch hst.symm.trans (hdone c hc)

/-- A player is removed: if it is the last one, no other departure is behind its removal. -/
theorem remove (h : Departing g players s standing erasures) (hst : standing c = .called c)
    {gm : Game} (hg : s.game? g = some gm)
    (halone : (gm.removePlayer c).onlinePlayers = [] →
      ∀ p ∈ players, p ≠ c → standing p ≠ .removed) :
    Departing g players (s.setGame g (gm.removePlayer c)) (Function.update standing c .removed)
      erasures where
  outside := h.outside_update (h.mem (by simp [hst])) _
  own := h.own_update fun _ heq => by cases heq
  phase := by
    have hc : c ∈ players := h.mem (by simp [hst])
    have huuid : (gm.removePlayer c).uuid = g := show gm.uuid = g from game?_uuid hg
    have hg' := game?_setGame hg huuid
    cases h.phase with
    | running gm' hgm' hnodup hne hpresent hlast =>
        obtain rfl : gm = gm' := Option.some.inj (hg.symm.trans hgm')
        have hnodup' : ((s.setGame g (gm.removePlayer c)).games.map Game.uuid).Nodup := by
          rw [Managers.setGame, map_uuid_replace _ _ huuid]
          exact hnodup
        have honline : ∀ p, p ∈ (gm.removePlayer c).onlinePlayers ↔
            p ∈ players ∧ (Function.update standing c .removed p).Present := by
          intro p
          rw [Game.removePlayer, List.mem_filter, hpresent]
          by_cases hpc : p = c
          · subst hpc
            simp [DepartureStanding.Present]
          · simp [hpc]
        by_cases hempty : (gm.removePlayer c).onlinePlayers = []
        · refine .closing _ c hg' hnodup' hempty hc (.inl (Function.update_self ..)) ?_
          intro p hp hpc
          have habsent : ¬ (standing p).Present := by
            intro hpp
            have hmem := (honline p).mpr ⟨hp, by rwa [Function.update_of_ne hpc]⟩
            simp [hempty] at hmem
          rw [Function.update_of_ne hpc]
          cases hcase : standing p with
          | fresh => exact (habsent (by rw [hcase]; trivial)).elim
          | called => exact (habsent (by rw [hcase]; trivial)).elim
          | removed => exact absurd hcase (halone hempty p hp hpc)
          | last => exact absurd hcase (hlast p hp)
          | done => rfl
        · refine .running _ hg' hnodup' (fun _ => hempty) honline fun p hp => ?_
          by_cases hpc : p = c
          · subst hpc
            rw [Function.update_self]
            rintro ⟨⟩
          · rw [Function.update_of_ne hpc]
            exact hlast p hp
    | closing _ c' _ _ _ _ hst' hothers =>
        by_cases hcc : c = c'
        · subst hcc
          rw [hst] at hst'
          rcases hst' with heq | heq <;> cases heq
        · cases hst.symm.trans (hothers c hc hcc)
    | closed _ hdone => cases hst.symm.trans (hdone c hc)

/-- A departure tests whether anybody is left. -/
theorem test (h : Departing g players s standing erasures) (hst : standing c = .removed)
    {gm : Game} (hg : s.game? g = some gm) :
    Departing g players s (Function.update standing c
      (if gm.onlinePlayers.isEmpty then .last else .done)) erasures where
  outside := h.outside_update (h.mem (by simp [hst])) _
  own := h.own_update fun user => by split <;> exact nofun
  phase := by
    have hc : c ∈ players := h.mem (by simp [hst])
    cases h.phase with
    | running gm' hgm' hnodup hne hpresent hlast =>
        obtain rfl : gm = gm' := Option.some.inj (hg.symm.trans hgm')
        have hsome : gm.onlinePlayers.isEmpty = false :=
          List.isEmpty_eq_false_iff.mpr (hne (List.ne_nil_of_mem hc))
        rw [hsome]
        refine .running gm hg hnodup hne (fun p => ?_) fun p hp => ?_
        · rw [hpresent]
          by_cases hpc : p = c
          · subst hpc
            rw [Function.update_self, hst]
            rfl
          · rw [Function.update_of_ne hpc]
        · by_cases hpc : p = c
          · subst hpc
            rw [Function.update_self]
            exact nofun
          · rw [Function.update_of_ne hpc]
            exact hlast p hp
    | closing gm' c' hgm' hnodup hempty hc' hst' hothers =>
        obtain rfl : gm = gm' := Option.some.inj (hg.symm.trans hgm')
        by_cases hcc : c = c'
        · subst hcc
          refine .closing gm c hg hnodup hempty hc (.inr ?_) fun p hp hpc => ?_
          · simp [hempty]
          · rw [Function.update_of_ne hpc]
            exact hothers p hp hpc
        · exact nomatch hst.symm.trans (hothers c hc hcc)
    | closed _ hdone => exact nomatch hst.symm.trans (hdone c hc)

/-- The departure that found the game empty erases it. -/
theorem erase (h : Departing g players s standing erasures) (hst : standing c = .last) :
    Departing g players { s with games := s.games.eraseP (·.uuid = g) }
      (Function.update standing c .done) (erasures + 1) where
  outside := h.outside_update (h.mem (by simp [hst])) _
  own := h.own_update nofun
  phase := by
    have hc : c ∈ players := h.mem (by simp [hst])
    cases h.phase with
    | running _ _ _ _ _ hlast => exact absurd hst (hlast c hc)
    | closing gm c' _ hnodup _ _ _ hothers =>
        by_cases hcc : c = c'
        · subst hcc
          refine .closed ?_ fun p hp => ?_
          · exact List.find?_eq_none.mpr fun gm' hgm' => by
              simpa using eraseP_uuid_ne hnodup gm' hgm'
          · by_cases hpc : p = c
            · subst hpc
              exact Function.update_self ..
            · rw [Function.update_of_ne hpc]
              exact hothers p hp hpc
        · exact nomatch hst.symm.trans (hothers c hc hcc)
    | closed _ hdone => exact nomatch hst.symm.trans (hdone c hc)

end Departing

end Phases

/-! ## Runs -/

section Runs

variable {gm : Game} {players : List LoggedUser}

abbrev DepartureConfig : Type :=
  Config operations Managers LoggedUser Unit LoggedUser (Option Error)

/-- The clients are the players that leave, each once. -/
def EachOnce (players : List LoggedUser) (_ : DepartureConfig) :
    Service.Label LoggedUser LoggedUser Unit → Prop
  | .receive c user => user = c ∧ c ∈ players
  | _ => True

/-- The next section of a departure removes the last online player. -/
def RemovesLast (g : String) (cfg : DepartureConfig) (c : LoggedUser) : Bool :=
  match (cfg.clients c).nextOp with
  | some (.game (.removePlayer _ user)) =>
      (cfg.shared.game? g).all fun gm => (gm.removePlayer user).onlinePlayers.isEmpty
  | _ => false

/-- The last online player is removed only when every other departure that has removed its
player has made its test. -/
def LastAlone (g : String) (players : List LoggedUser) (cfg : DepartureConfig) :
    Service.Label LoggedUser LoggedUser Unit → Prop
  | .perform c => RemovesLast g cfg c = true →
      ∀ p ∈ players, p ≠ c → (departureDiscipline g).standing p cfg.trace ≠ .removed
  | _ => True

instance {cfg : DepartureConfig} :
    DecidablePred fun l : Service.Label LoggedUser LoggedUser Unit => EachOnce players cfg l
  | .receive .. => inferInstanceAs (Decidable (_ ∧ _))
  | .connect _ | .perform _ | .finish .. => .isTrue trivial

instance {cfg : DepartureConfig} :
    DecidablePred fun l : Service.Label LoggedUser LoggedUser Unit => LastAlone g players cfg l
  | .perform _ => inferInstanceAs (Decidable (_ → _))
  | .connect _ | .receive .. | .finish .. => .isTrue trivial

def erases (e : LoggedUser × Observation operations Unit LoggedUser (Option Error)) : Bool :=
  match e.2 with
  | .called ⟨.game (.eraseGame _), _⟩ => true
  | _ => false

/-- The next section of a departure looks for the game and erases it. -/
def erasesNext (client : Client operations Unit LoggedUser (Option Error)) : Bool :=
  match client.nextOp with
  | some (.game (.eraseGame _)) => true
  | _ => false

/-- Every section that is next finds the game; it is erased at most once, and exactly once when
all the players have left. -/
structure ErasedOnce (g : String) (players : List LoggedUser) (cfg : DepartureConfig) : Prop where
  finds : ∀ c o, (cfg.clients c).nextOp = some (.game o) → ∃ gm, cfg.shared.game? g = some gm
  erasures_le : cfg.trace.countP erases ≤ 1
  erased : players ≠ [] → (∀ p ∈ players, cfg.clients p = .ended) →
    cfg.trace.countP erases = 1 ∧ cfg.shared.game? g = none

/-- The phase that the departures of a run have reached. -/
def Left (g : String) (players : List LoggedUser) (s : Managers)
    (trace : List (LoggedUser × Observation operations Unit LoggedUser (Option Error))) : Prop :=
  Departing g players s (fun c => (departureDiscipline g).standing c trace) (trace.countP erases)

namespace Left

variable {trace : List (LoggedUser × Observation operations Unit LoggedUser (Option Error))}
  {c : LoggedUser} {o : Observation operations Unit LoggedUser (Option Error)}

theorem snoc (h : Departing g players s' (Function.update
      (fun c' => (departureDiscipline g).standing c' trace) c
      (((departureDiscipline g).standing c trace).observe o))
    (trace.countP erases + if erases (c, o) then 1 else 0)) :
    Left g players s' (trace ++ [(c, o)]) := by
  unfold Left
  rw [Discipline.standing_snoc, departureDiscipline_observe]
  simpa only [List.countP_append, List.countP_singleton] using h

/-- Other observations keep the phase. -/
theorem other (h : Left g players s trace)
    (hstep : s'.games.map Game.uuid = s.games.map Game.uuid ∧ ∀ gm, s.game? g = some gm →
      ∃ gm', s'.game? g = some gm' ∧ gm'.onlinePlayers = gm.onlinePlayers)
    (ho : ((departureDiscipline g).standing c trace).observe o =
      (departureDiscipline g).standing c trace)
    (herases : erases (c, o) = false) : Left g players s' (trace ++ [(c, o)]) := by
  refine snoc ?_
  rw [ho, herases]
  simpa only [Function.update_eq_self, Bool.false_eq_true, if_false, Nat.add_zero] using
    Departing.same h hstep.1 hstep.2

theorem works {o : Op} {r : o.Answer} (h : Left g players s trace)
    (hallowed : o.Works g ∧ ((departureDiscipline g).standing c trace).Untested)
    (hs : (machine d).Step o s r s') : Left g players s' (trace ++ [(c, .called ⟨o, r⟩)]) := by
  refine h.other (hallowed.1.step hs)
    ((DepartureStanding.neutralAt_of_works hallowed.2 hallowed.1).2 r) ?_
  cases o with
  | game o =>
      cases o with
      | eraseGame => exact (hallowed.1.elim id id).elim
      | _ => rfl
  | _ => rfl

theorem called {o : Op} {r : o.Answer} (h : Left g players s trace)
    (hallowed : (departureDiscipline g).allowed ((departureDiscipline g).standing c trace) o)
    (hs : (machine d).Step o s r s')
    (halone : ∀ id user gm, o = .game (.removePlayer id user) → s.game? g = some gm →
      (gm.removePlayer user).onlinePlayers = [] → ∀ p ∈ players, p ≠ c →
        (departureDiscipline g).standing p trace ≠ .removed) :
    Left g players s' (trace ++ [(c, .called ⟨o, r⟩)]) := by
  cases o with
  | login | room | database | external => exact h.works hallowed hs
  | game o =>
      cases o with
      | removePlayer id user =>
          obtain ⟨rfl, hst⟩ := hallowed
          obtain rfl : user = c := Departing.own h c user hst
          obtain ⟨choice, -, hx⟩ := hs
          obtain ⟨gm, gm', hg, hr, rfl⟩ := writeGame_ok hx
          cases hr
          refine snoc ?_
          rw [hst]
          exact Departing.remove h hst hg (halone _ _ gm rfl hg)
      | getOnlinePlayers id =>
          obtain ⟨rfl, hst⟩ := hallowed
          obtain ⟨choice, -, hx⟩ := hs
          obtain ⟨rfl, gm, hg, hr⟩ := readGame_ok hx
          cases hr
          refine snoc ?_
          rw [hst]
          exact Departing.test h hst hg
      | eraseGame id =>
          obtain ⟨rfl, hst⟩ := hallowed
          obtain ⟨choice, -, hx⟩ := hs
          simp only [Op.exec, GameOp.exec] at hx
          split_ifs at hx
          cases hx
          refine snoc ?_
          rw [hst]
          exact Departing.erase h hst
      | _ => exact h.works hallowed hs

end Left

theorem left_of_run (hg : s.game? g = some gm) (hnodup : (s.games.map Game.uuid).Nodup)
    {cfg : DepartureConfig}
    (hrun : Service.Reachable (departures g) (machine d)
      (fun cfg l => EachOnce gm.onlinePlayers cfg l ∧ LastAlone g gm.onlinePlayers cfg l)
      (Service.start s) cfg) :
    Left g gm.onlinePlayers cfg.shared cfg.trace ∧
      ∀ c, (departureDiscipline g).Keeps (departures g) (fun _ st => st = .fresh)
        (fun st => st = .done) cfg c := by
  refine (departures_obey g).reachable (I := Left g gm.onlinePlayers) ?_ ?_ ?_ hrun
    ⟨.start hg hnodup, fun _ => rfl⟩
  · rintro cfg c _ user h _ ⟨⟨rfl, hmem⟩, -⟩ hfresh
    refine Left.snoc ?_
    rw [show (departureDiscipline g).standing user cfg.trace = _ from hfresh]
    exact Departing.receive h hmem hfresh
  · rintro cfg c _ _ o next r s' h hc ⟨-, hK⟩ hallowed hs
    refine ⟨trivial, h.called hallowed hs ?_⟩
    rintro id user gm' rfl hg' hempty
    refine hK ?_
    simp [RemovesLast, hc, Client.nextOp, hg', hempty]
  · rintro s trace c _ user a o h ⟨hdone, -⟩
    refine h.other ⟨rfl, fun gm hg => ⟨gm, hg, rfl⟩⟩ ?_ rfl
    rw [show (departureDiscipline g).standing c trace = _ from hdone]
    rfl

/-- If the last player is removed while no other departure is between its removal and its
test, then the game is erased once, and nobody uses it afterwards. -/
theorem erasedOnce_of_lastAlone (hg : s.game? g = some gm)
    (hnodup : (s.games.map Game.uuid).Nodup) {cfg : DepartureConfig}
    (hrun : Service.Reachable (departures g) (machine d)
      (fun cfg l => EachOnce gm.onlinePlayers cfg l ∧ LastAlone g gm.onlinePlayers cfg l)
      (Service.start s) cfg) : ErasedOnce g gm.onlinePlayers cfg := by
  obtain ⟨hleft, hkeeps⟩ := left_of_run hg hnodup hrun
  have hended_done : ∀ p, cfg.clients p = .ended →
      (departureDiscipline g).standing p cfg.trace = .done := by
    intro p hp
    have hfits := hkeeps p
    unfold Discipline.Keeps at hfits
    rwa [hp] at hfits
  refine ⟨fun c o ho => ?_, ?_, fun hne hended => ?_⟩
  · unfold Client.nextOp at ho
    split at ho
    · next hc =>
        cases ho
        obtain ⟨hfresh, hdone⟩ := DepartureStanding.ne_of_allowed ((hkeeps c).allowed hc)
        exact Departing.game hleft hfresh hdone
    · cases ho
  · have hphase := Departing.phase hleft
    generalize cfg.trace.countP erases = n at hphase
    cases hphase <;> decide
  · have hphase := Departing.phase hleft
    generalize cfg.trace.countP erases = n at hphase
    cases hphase with
    | running gm' _ _ hsome hpresent _ =>
        obtain ⟨p, hp⟩ := List.exists_mem_of_ne_nil _ (hsome hne)
        obtain ⟨hmem, hpresent⟩ := (hpresent p).mp hp
        rw [hended_done p (hended p hmem)] at hpresent
        exact hpresent.elim
    | closing gm' c _ _ _ hc hst _ =>
        rw [hended_done c (hended c hc)] at hst
        exact nomatch hst
    | closed hgone _ => exact ⟨rfl, hgone⟩

end Runs

/-! ## Two departures -/

/-- `ann` and `bob` leave their game in the middle. -/
def replayDepartures (plays : List (Service.Play LoggedUser LoggedUser Unit Choice))
    (check : DepartureConfig → Service.Label LoggedUser LoggedUser Unit → Bool) :
    Option DepartureConfig :=
  Service.replayIf (departures "g") interpreter (Op.admits true) (fun play _ => play.label)
    check ([.connect ⟨"ann"⟩, .connect ⟨"bob"⟩, .receive ⟨"ann"⟩ ⟨"ann"⟩,
      .receive ⟨"bob"⟩ ⟨"bob"⟩] ++ plays)
    (Service.start { database := sampleDatabase, games := [sampleGame] })

/-- `ann` has made her test when `bob` is removed. -/
theorem erasedOnce_inTurn : ∃ cfg : DepartureConfig,
    ErasedOnce "g" [⟨"ann"⟩, ⟨"bob"⟩] cfg ∧ cfg.trace.countP erases = 1 := by
  have hrun : ((replayDepartures (List.replicate 11 (.perform ⟨"ann"⟩ usual) ++
      List.replicate 12 (.perform ⟨"bob"⟩ usual) ++ [.finish ⟨"ann"⟩ (), .finish ⟨"bob"⟩ ()])
      fun cfg l => decide (EachOnce sampleGame.onlinePlayers cfg l ∧
        LastAlone "g" sampleGame.onlinePlayers cfg l)).any fun cfg =>
      cfg.trace.countP erases = 1) = true := by
    decide +kernel
  obtain ⟨cfg, hcfg, hcount⟩ := (Option.any_eq_true _ _).mp hrun
  have hreachable := Service.reachable_of_replayIf
    (K := fun cfg l => EachOnce sampleGame.onlinePlayers cfg l ∧
      LastAlone "g" sampleGame.onlinePlayers cfg l) (fun _ _ h => of_decide_eq_true h) hcfg
  have hgame : Managers.game? { database := sampleDatabase, games := [sampleGame] } "g" =
    some sampleGame := rfl
  exact ⟨cfg, erasedOnce_of_lastAlone hgame (by decide) hreachable, of_decide_eq_true hcount⟩

/-- Both are removed before either makes the test: both find the game empty, and the second one
looks for a game that is gone. -/
theorem not_erasedOnce_together : ∃ cfg : DepartureConfig,
    Service.Reachable (departures "g") (machine true) (EachOnce [⟨"ann"⟩, ⟨"bob"⟩])
      (Service.start { database := sampleDatabase, games := [sampleGame] }) cfg ∧
    sampleGame.onlinePlayers = [⟨"ann"⟩, ⟨"bob"⟩] ∧
    ¬ ErasedOnce "g" [⟨"ann"⟩, ⟨"bob"⟩] cfg := by
  have hrun : ((replayDepartures (List.replicate 10 (.perform ⟨"ann"⟩ usual) ++
      List.replicate 10 (.perform ⟨"bob"⟩ usual) ++ [.perform ⟨"ann"⟩ usual,
        .perform ⟨"bob"⟩ usual, .perform ⟨"ann"⟩ usual])
      fun cfg l => decide (EachOnce [⟨"ann"⟩, ⟨"bob"⟩] cfg l)).any fun cfg =>
      erasesNext (cfg.clients ⟨"bob"⟩) && (cfg.shared.game? "g").isNone) = true := by
    decide +kernel
  obtain ⟨cfg, hcfg, hcheck⟩ := (Option.any_eq_true _ _).mp hrun
  simp only [Bool.and_eq_true, Option.isNone_iff_eq_none] at hcheck
  obtain ⟨hnext, hgone⟩ := hcheck
  refine ⟨cfg, Service.reachable_of_replayIf (fun _ _ h => of_decide_eq_true h) hcfg, by decide,
    fun honce => ?_⟩
  unfold erasesNext at hnext
  split at hnext
  · next hop =>
      obtain ⟨gm, hg⟩ := honce.finds _ _ hop
      exact nomatch hgone.symm.trans hg
  · cases hnext

end TriviaServer
