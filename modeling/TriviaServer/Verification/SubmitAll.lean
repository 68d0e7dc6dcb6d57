import Mathlib.Data.Fintype.Basic
import TriviaServer.Interaction.Discipline
import TriviaServer.Verification.Departure
import TriviaServer.Verification.Questions
import TriviaServer.Verification.Replays

/-! # Concurrent submissions of a game's results

A call of `submitAllGameStatsToDB` takes a copy of the results, and marks and submits the
players that are not marked in the copy. Nobody is submitted twice if the copies are taken
while no other call has players left to mark. -/

namespace TriviaServer

open Interaction
open Program (Only)

variable {d : Bool} {g : String} {s : Managers}

/-! ## One call of `submitAllGameStatsToDB` -/

/-- The players of a copy of the results that are still to be marked. -/
def unmarked (results : List (LoggedUser × GameData)) : List LoggedUser :=
  (results.filter fun e => !e.2.isScoreSubmittedToDB).map Prod.fst

/-- Where a call is: the players it has still to mark, and the one it marked last, if that
one is not submitted yet. -/
structure SubmitStanding where
  todo : List LoggedUser := []
  marked : Option LoggedUser := none

namespace SubmitStanding

def observe (st : SubmitStanding) (o : Observation operations Unit Unit Unit) : SubmitStanding :=
  match o with
  | .called ⟨.game (.getPlayersResults _), results⟩ => { todo := unmarked results.toList }
  | .called ⟨.game (.markUserResultsAsSubmittedToDB _ user), _⟩ =>
      { todo := st.todo.filter (· ≠ user), marked := some user }
  | .called ⟨.game (.submitting ..), _⟩ => { st with marked := none }
  | _ => st

/-- The call will submit the player. -/
def Holds (st : SubmitStanding) (p : LoggedUser) : Prop := p ∈ st.todo ∨ st.marked = some p

end SubmitStanding

/-- A call submits whom it has just marked, and marks whom its copy shows as unmarked. -/
def submitDiscipline (g : String) : Discipline operations Unit Unit Unit SubmitStanding where
  initial := {}
  observe := SubmitStanding.observe
  allowed st o :=
    match o with
    | .game (.getGameById id) => id = g
    | .game (.getPlayersResults id) => id = g ∧ st = {}
    | .game (.markUserResultsAsSubmittedToDB id user) =>
        id = g ∧ user ∈ st.todo ∧ st.marked = none
    | .game (.submitting id user _) => id = g ∧ st.marked = some user
    | .database _ => True
    | .external (.throw _) => True
    | _ => False
  assumed _ _ := True
  mayFinish st _ _ _ := st = {}

theorem submitDiscipline_observe (g : String) :
    (submitDiscipline g).observe = SubmitStanding.observe := rfl

/-- Calls of `submitAllGameStatsToDB` for one game. -/
def submissionCalls (g : String) : Service operations Unit Unit Unit Unit :=
  Service.pool fun _ => GameManager.submitAllGameStatsToDB g

theorem SubmitStanding.neutral_of_books {o : Op} (ho : o.Books) :
    (submitDiscipline g).Neutral o := by
  intro st
  cases o with
  | database o => exact ⟨trivial, fun _ => rfl⟩
  | external o =>
      cases o with
      | throw => exact ⟨trivial, fun _ => rfl⟩
      | _ => exact ho.elim
  | login | room | game => exact ho.elim

theorem wp_submitResults_standing {results : List (LoggedUser × GameData)}
    (hnodup : (results.map Prod.fst).Nodup)
    {Q : List (Event operations) → Unit → SubmitStanding → Prop} (h : ∀ t, Q t () {}) :
    wp (submitDiscipline g).machine (fun _ => False) (GameManager.submitResults g results) Q
      { todo := unmarked results } := by
  induction results generalizing Q with
  | nil => exact (wp_pure ..).mpr (h [])
  | cons entry rest ih =>
      obtain ⟨player, data⟩ := entry
      obtain ⟨hnew, hrest⟩ := List.nodup_cons.mp hnodup
      unfold GameManager.submitResults
      cases hmarked : data.isScoreSubmittedToDB with
      | true =>
          have hskip : unmarked ((player, data) :: rest) = unmarked rest := by
            simp [unmarked, hmarked]
          rw [hskip]
          exact ih hrest h
      | false =>
          have htodo : unmarked ((player, data) :: rest) = player :: unmarked rest := by
            simp [unmarked, hmarked]
          have hleft : (player :: unmarked rest).filter (· ≠ player) = unmarked rest := by
            rw [List.filter_cons_of_neg (by simp), List.filter_eq_self]
            rintro p hp
            have hmem : p ∈ rest.map Prod.fst := (List.filter_sublist.map _).subset hp
            exact decide_eq_true fun heq => hnew (heq ▸ hmem)
          rw [htodo]
          simp only [Bool.false_eq_true, if_false, wp_bind]
          refine Discipline.wp_call (D := submitDiscipline g)
            ⟨rfl, List.mem_cons_self, rfl⟩ fun _ _ => ?_
          refine Discipline.wp_call (D := submitDiscipline g) ⟨rfl, rfl⟩ fun _ _ => ?_
          refine Discipline.wp_neutral (D := submitDiscipline g)
            ((books_submitGameStatistics _ _).then_true.imp fun _ =>
              SubmitStanding.neutral_of_books) fun t _ _ => ?_
          show wp _ _ _ _ (SubmitStanding.mk ((player :: unmarked rest).filter (· ≠ player)) none)
          rw [hleft]
          exact ih hrest fun _ => h _

theorem submissionCalls_obey (g : String) :
    (submitDiscipline g).ObeyedBy (submissionCalls g) (fun _ st => st = {}) fun st => st = {} where
  start := rfl
  serve := by
    rintro _ _ _ - rfl
    show wp _ _ (GameManager.submitAllGameStatsToDB g) _ ({} : SubmitStanding)
    unfold GameManager.submitAllGameStatsToDB GameManager.getGameById
    simp only [wp_bind]
    refine Discipline.wp_call (D := submitDiscipline g) rfl fun _ _ => (wp_pure ..).mpr ?_
    refine Discipline.wp_call (D := submitDiscipline g) ⟨rfl, rfl⟩ fun results _ => ?_
    exact wp_submitResults_standing (nodup_players results) fun t => ⟨rfl, fun _ => rfl⟩

/-! ## The players of a run -/

section Players

variable {ι : Type}

def submits (p : LoggedUser) (e : ι × Observation operations Unit Unit Unit) : Bool :=
  match e.2 with
  | .called ⟨.game (.submitting _ user _), _⟩ => user = p
  | _ => false

/-- How often a player's statistics are submitted in a run. -/
def submissionCount (p : LoggedUser) (trace : List (ι × Observation operations Unit Unit Unit)) :
    ℕ :=
  trace.countP (submits p)

/-- The player's entry in the shared game says that it is submitted. -/
def Managers.Marked (s : Managers) (g : String) (p : LoggedUser) : Prop :=
  ∃ gm data, s.game? g = some gm ∧ gm.players[p]? = some data ∧ data.isScoreSubmittedToDB = true

/-- At most one call will submit a player, and only one who is not submitted yet. -/
structure HeldOnce (g : String) (s : Managers) (standing : ι → SubmitStanding)
    (count : LoggedUser → ℕ) : Prop where
  marked : ∀ p, (0 < count p ∨ ∃ c, (standing c).marked = some p) → s.Marked g p
  fresh : ∀ c p, (standing c).Holds p → count p = 0
  one : ∀ c c' p, (standing c).Holds p → (standing c').Holds p → c = c'
  apart : ∀ c p, (standing c).marked = some p → p ∉ (standing c).todo
  count_le : ∀ p, count p ≤ 1

theorem mem_unmarked {m : Std.TreeMap LoggedUser GameData} {p : LoggedUser}
    (h : p ∈ unmarked m.toList) :
    ∃ data, m[p]? = some data ∧ data.isScoreSubmittedToDB = false := by
  obtain ⟨⟨p', data⟩, hmem, rfl⟩ := List.mem_map.mp h
  obtain ⟨hmem, hflag⟩ := List.mem_filter.mp hmem
  exact ⟨data, Std.TreeMap.mem_toList_iff_getElem?_eq_some.mp hmem, by simpa using hflag⟩

theorem not_marked_of_mem_unmarked {gm : Game} {p : LoggedUser} (hg : s.game? g = some gm)
    (h : p ∈ unmarked gm.players.toList) : ¬ s.Marked g p := by
  rintro ⟨gm', data, hg', hdata, hflag⟩
  obtain ⟨data', hdata', hflag'⟩ := mem_unmarked h
  obtain rfl : gm = gm' := Option.some.inj (hg.symm.trans hg')
  obtain rfl : data = data' := Option.some.inj (hdata.symm.trans hdata')
  simp [hflag] at hflag'

theorem Managers.Marked.markUser {gm : Game} {p user : LoggedUser} {data : GameData}
    (hg : s.game? g = some gm) (hdata : gm.players[user]? = some data)
    (h : p = user ∨ s.Marked g p) :
    (s.setGame g (gm.setPlayers (gm.players.insert user
      { data with isScoreSubmittedToDB := true }))).Marked g p := by
  have huuid : gm.uuid = g := game?_uuid hg
  rcases h with rfl | ⟨gm', data', hg', hdata', hflag⟩
  · exact ⟨_, _, game?_setGame hg huuid, Std.TreeMap.getElem?_insert_self, rfl⟩
  · obtain rfl : gm = gm' := Option.some.inj (hg.symm.trans hg')
    by_cases hp : user = p
    · subst hp
      exact ⟨_, _, game?_setGame hg huuid, Std.TreeMap.getElem?_insert_self, rfl⟩
    · refine ⟨_, data', game?_setGame hg huuid, ?_, hflag⟩
      have hne : compare user p ≠ .eq := fun he => hp (Std.LawfulEqCmp.eq_of_compare he)
      rw [Game.setPlayers_players, Std.TreeMap.getElem?_insert, if_neg hne, hdata']

namespace HeldOnce

variable {standing : ι → SubmitStanding} {count : LoggedUser → ℕ} {s' : Managers} {c : ι}

theorem start : HeldOnce g s (fun _ : ι => {}) fun _ => 0 where
  marked p h := by simp at h
  fresh _ _ _ := rfl
  one c c' p h := by simp [SubmitStanding.Holds] at h
  apart c p h := by simp at h
  count_le _ := Nat.zero_le _

theorem same (h : HeldOnce g s standing count) (hgame : s'.game? g = s.game? g) :
    HeldOnce g s' standing count where
  marked p hp := by
    obtain ⟨gm, data, hg, hmarked⟩ := h.marked p hp
    exact ⟨gm, data, hgame.trans hg, hmarked⟩
  fresh := h.fresh
  one := h.one
  apart := h.apart
  count_le := h.count_le

variable [DecidableEq ι]

theorem holds_update {st : SubmitStanding} (hst : ∀ p, st.Holds p → (standing c).Holds p) {c' : ι}
    {p : LoggedUser} (hp : (Function.update standing c st c').Holds p) : (standing c').Holds p := by
  by_cases hcc : c' = c
  · subst hcc
    rw [Function.update_self] at hp
    exact hst p hp
  · rwa [Function.update_of_ne hcc] at hp

/-- A call takes its copy, while no call has players left to mark. -/
theorem copy (h : HeldOnce g s standing count) {gm : Game} (hg : s.game? g = some gm)
    (hnone : ∀ c', (standing c').todo = []) :
    HeldOnce g s (Function.update standing c { todo := unmarked gm.players.toList }) count := by
  set st : SubmitStanding := { todo := unmarked gm.players.toList } with hst
  have hmarked : ∀ c' p, (Function.update standing c st c').marked = some p →
      (standing c').marked = some p :=
    (Function.forall_update_iff standing fun c' st =>
      ∀ p, st.marked = some p → (standing c').marked = some p).mpr ⟨nofun, fun _ _ _ => id⟩
  -- whoever a call holds by now is marked, and is not in the copy
  have hother : ∀ c' p, (standing c').Holds p → ¬ st.Holds p := by
    rintro c' p (hp | hp) hnew
    · exact List.not_mem_nil (hnone c' ▸ hp)
    · exact not_marked_of_mem_unmarked hg (hnew.resolve_right nofun) (h.marked p (.inr ⟨c', hp⟩))
  refine ⟨fun p hp => h.marked p ?_, fun c' p hp => ?_, fun c₁ c₂ p => ?_,
    fun c' p hp => ?_, h.count_le⟩
  · exact hp.imp_right fun ⟨c', hc'⟩ => ⟨c', hmarked c' p hc'⟩
  · by_cases hcc : c' = c
    · subst hcc
      rw [Function.update_self] at hp
      have hnot := not_marked_of_mem_unmarked hg (hp.resolve_right nofun)
      exact Nat.eq_zero_of_not_pos fun hpos => hnot (h.marked p (.inl hpos))
    · rw [Function.update_of_ne hcc] at hp
      exact h.fresh c' p hp
  · exact unique_update (p := fun st : SubmitStanding => st.Holds p) (fun c₁ c₂ => h.one c₁ c₂ p)
      (fun hnew c' _ hold => hother c' p hold hnew) c₁ c₂
  · by_cases hcc : c' = c
    · subst hcc
      rw [Function.update_self] at hp
      exact nomatch hp
    · rw [Function.update_of_ne hcc] at hp ⊢
      exact h.apart c' p hp

/-- A call marks a player that it has left. -/
theorem mark (h : HeldOnce g s standing count) {user : LoggedUser}
    (huser : user ∈ (standing c).todo) (hmarked : s'.Marked g user)
    (hkept : ∀ p, s.Marked g p → s'.Marked g p) :
    HeldOnce g s' (Function.update standing c
      { todo := (standing c).todo.filter (· ≠ user), marked := some user }) count := by
  have hholds : ∀ p, SubmitStanding.Holds
      { todo := (standing c).todo.filter (· ≠ user), marked := some user } p →
      (standing c).Holds p := by
    rintro p (hp | hp)
    · exact .inl (List.mem_of_mem_filter hp)
    · cases hp
      exact .inl huser
  refine ⟨fun p hp => ?_, fun c' p hp => h.fresh c' p (holds_update hholds hp),
    fun c₁ c₂ p h₁ h₂ => h.one c₁ c₂ p (holds_update hholds h₁) (holds_update hholds h₂),
    fun c' p hp => ?_, h.count_le⟩
  · rcases hp with hp | ⟨c', hp⟩
    · exact hkept p (h.marked p (.inl hp))
    · by_cases hcc : c' = c
      · subst hcc
        rw [Function.update_self] at hp
        cases hp
        exact hmarked
      · rw [Function.update_of_ne hcc] at hp
        exact hkept p (h.marked p (.inr ⟨c', hp⟩))
  · by_cases hcc : c' = c
    · subst hcc
      rw [Function.update_self] at hp ⊢
      cases hp
      simp
    · rw [Function.update_of_ne hcc] at hp ⊢
      exact h.apart c' p hp

/-- A call submits the player it has marked. -/
theorem submit (h : HeldOnce g s standing count) {user : LoggedUser}
    (huser : (standing c).marked = some user) :
    HeldOnce g s (Function.update standing c { standing c with marked := none })
      fun p => count p + if user = p then 1 else 0 := by
  have hholds : ∀ p, SubmitStanding.Holds { standing c with marked := none } p →
      (standing c).Holds p := fun p hp => .inl (hp.resolve_right nofun)
  -- nobody holds the player any more
  have hgone : ∀ c', ¬ (Function.update standing c { standing c with marked := none } c').Holds
      user := by
    intro c' hp
    obtain rfl := h.one c' c user (holds_update hholds hp) (.inr huser)
    rw [Function.update_self] at hp
    exact h.apart c' user huser (hp.resolve_right nofun)
  refine ⟨fun p hp => ?_, fun c' p hp => ?_,
    fun c₁ c₂ p h₁ h₂ => h.one c₁ c₂ p (holds_update hholds h₁) (holds_update hholds h₂),
    fun c' p hp => ?_, fun p => ?_⟩
  · by_cases hpu : user = p
    · subst hpu
      exact h.marked user (.inr ⟨c, huser⟩)
    · rcases hp with hp | ⟨c', hp⟩
      · exact h.marked p (.inl (by simpa [hpu] using hp))
      · by_cases hcc : c' = c
        · subst hcc
          rw [Function.update_self] at hp
          exact nomatch hp
        · rw [Function.update_of_ne hcc] at hp
          exact h.marked p (.inr ⟨c', hp⟩)
  · have hne : user ≠ p := fun heq => hgone c' (heq ▸ hp)
    rw [if_neg hne]
    exact h.fresh c' p (holds_update hholds hp)
  · by_cases hcc : c' = c
    · subst hcc
      rw [Function.update_self] at hp
      exact nomatch hp
    · rw [Function.update_of_ne hcc] at hp ⊢
      exact h.apart c' p hp
  · by_cases hpu : user = p
    · subst hpu
      simp [h.fresh c user (.inr huser)]
    · simpa [hpu] using h.count_le p

end HeldOnce

end Players

/-! ## Runs -/

section Runs

variable {ι : Type} [DecidableEq ι] {s₀ : Managers}

abbrev SubmissionConfig (ι : Type) : Type := Config operations Managers ι Unit Unit Unit

def CopiesNext (client : Client operations Unit Unit Unit) : Bool :=
  match client.nextOp with
  | some (.game (.getPlayersResults _)) => true
  | _ => false

/-- A call takes its copy only when no call has players left to mark. -/
def CopiesAlone (g : String) (cfg : SubmissionConfig ι) : Service.Label ι Unit Unit → Prop
  | .perform c => CopiesNext (cfg.clients c) = true →
      ∀ c', ((submitDiscipline g).standing c' cfg.trace).todo = []
  | _ => True

instance [Fintype ι] {cfg : SubmissionConfig ι} :
    DecidablePred fun l : Service.Label ι Unit Unit => CopiesAlone g cfg l
  | .perform _ => inferInstanceAs (Decidable (_ → _))
  | .connect _ | .receive .. | .finish .. => .isTrue trivial

/-- What the calls of a run hold and have submitted so far. -/
def Held (g : String) (s : Managers) (trace : List (ι × Observation operations Unit Unit Unit)) :
    Prop :=
  HeldOnce g s (fun c => (submitDiscipline g).standing c trace) fun p => submissionCount p trace

namespace Held

variable {trace : List (ι × Observation operations Unit Unit Unit)} {c : ι} {s' : Managers}
  {o : Observation operations Unit Unit Unit}

theorem snoc (h : HeldOnce g s' (Function.update
      (fun c' => (submitDiscipline g).standing c' trace) c
      (((submitDiscipline g).standing c trace).observe o))
    fun p => submissionCount p trace + if submits p (c, o) then 1 else 0) :
    Held g s' (trace ++ [(c, o)]) := by
  unfold Held
  rw [Discipline.standing_snoc, submitDiscipline_observe]
  simpa only [submissionCount, List.countP_append, List.countP_singleton] using h

/-- Other observations change neither what a call holds nor who is submitted. -/
theorem other (h : Held g s trace) (hgame : s'.game? g = s.game? g)
    (ho : ((submitDiscipline g).standing c trace).observe o = (submitDiscipline g).standing c trace)
    (hsubmits : ∀ p, submits p (c, o) = false) : Held g s' (trace ++ [(c, o)]) := by
  refine snoc ?_
  rw [ho]
  simpa only [Function.update_eq_self, hsubmits, Bool.false_eq_true, if_false, Nat.add_zero] using
    HeldOnce.same h hgame

theorem called {o : Op} {r : o.Answer} (h : Held g s trace)
    (hallowed : (submitDiscipline g).allowed ((submitDiscipline g).standing c trace) o)
    (hs : (machine d).Step o s r s')
    (halone : ∀ id, o = .game (.getPlayersResults id) →
      ∀ c', ((submitDiscipline g).standing c' trace).todo = []) :
    Held g s' (trace ++ [(c, .called ⟨o, r⟩)]) := by
  cases o with
  | login | room => exact hallowed.elim
  | database o =>
      obtain ⟨_, _, -, -, rfl⟩ := DbOp.step_eq hs
      exact h.other rfl rfl fun _ => rfl
  | external o => exact h.other (by rw [ExternalOp.step_eq hs]) rfl fun _ => rfl
  | game o =>
      obtain ⟨choice, -, hx⟩ := hs
      cases o with
      | getGameById id =>
          simp only [Op.exec, GameOp.exec] at hx
          split_ifs at hx
          cases hx
          exact h.other rfl rfl fun _ => rfl
      | getPlayersResults id =>
          obtain ⟨rfl, -⟩ := hallowed
          obtain ⟨rfl, gm, hg, hr⟩ := readGame_ok hx
          cases hr
          exact snoc (HeldOnce.copy h hg (halone _ rfl))
      | markUserResultsAsSubmittedToDB id user =>
          obtain ⟨rfl, hmem, -⟩ := hallowed
          obtain ⟨gm, gm', hg, hr, rfl⟩ := writeGame_ok hx
          obtain ⟨data, hdata, rfl⟩ := updatePlayer_ok hr
          refine snoc (HeldOnce.mark h hmem ?_ fun p hp => ?_)
          · exact Managers.Marked.markUser hg hdata (.inl rfl)
          · exact Managers.Marked.markUser hg hdata (.inr hp)
      | submitting id user data =>
          cases hx
          refine snoc ?_
          simp only [submits, decide_eq_true_eq]
          exact HeldOnce.submit h hallowed.2
      | _ => exact hallowed.elim

end Held

theorem held_of_run {cfg : SubmissionConfig ι}
    (hrun : Service.Reachable (submissionCalls g) (machine d) (CopiesAlone g)
      (Service.start s₀) cfg) : Held g cfg.shared cfg.trace := by
  refine ((submissionCalls_obey g).reachable (I := Held g) ?_ ?_ ?_ hrun
    ⟨.start, fun _ => rfl⟩).1
  · intro cfg c _ _ h _ _ _
    exact h.other rfl rfl fun _ => rfl
  · intro cfg c _ _ o next r s' h hc hK hallowed hs
    refine ⟨trivial, h.called hallowed hs ?_⟩
    rintro id rfl
    exact hK (by rw [CopiesNext, hc]; rfl)
  · intro s trace c _ _ a o h _
    exact h.other rfl rfl fun _ => rfl

/-- If each call takes its copy only when no other has players left to mark, then nobody is
submitted twice. -/
theorem submittedOnce_of_copiesAlone {cfg : SubmissionConfig ι}
    (hrun : Service.Reachable (submissionCalls g) (machine d) (CopiesAlone g)
      (Service.start s₀) cfg) (p : LoggedUser) : submissionCount p cfg.trace ≤ 1 :=
  HeldOnce.count_le (held_of_run hrun) p

end Runs

/-! ## Two calls -/

/-- The results of a game that ended after 20 seconds are submitted by two calls. -/
def replaySubmissions (plays : List (Service.Play (Fin 2) Unit Unit Choice))
    (check : SubmissionConfig (Fin 2) → Service.Label (Fin 2) Unit Unit → Bool) :
    Option (SubmissionConfig (Fin 2)) :=
  Service.replayIf (submissionCalls "g") interpreter (Op.admits true) (fun play _ => play.label)
    check ([.connect 0, .connect 1, .receive 0 (), .receive 1 ()] ++ plays)
    (Service.start
      { database := sampleDatabase, games := [sampleGame], clock := 20000000000 })

/-- The second call takes its copy behind the first one. -/
theorem submittedOnce_inTurn : ∃ cfg : SubmissionConfig (Fin 2),
    submissionCount ⟨"ann"⟩ cfg.trace ≤ 1 ∧ Service.Quiescent cfg := by
  have hrun : ((replaySubmissions (List.replicate 10 (.perform 0 usual) ++
      [.perform 1 usual, .perform 1 usual, .finish 0 (), .finish 1 ()])
      fun cfg l => decide (CopiesAlone "g" cfg l)).any fun cfg =>
        decide (Service.Quiescent cfg)) = true := by
    decide +kernel
  obtain ⟨cfg, hcfg, hended⟩ := (Option.any_eq_true _ _).mp hrun
  have hreachable := Service.reachable_of_replayIf (K := CopiesAlone "g")
    (fun _ _ h => of_decide_eq_true h) hcfg
  exact ⟨cfg, submittedOnce_of_copiesAlone hreachable ⟨"ann"⟩, of_decide_eq_true hended⟩

/-- Both calls take their copies before either marks anybody: everybody is submitted twice. -/
theorem not_submittedOnce_together : ∃ cfg : SubmissionConfig (Fin 2),
    Service.Reachable (submissionCalls "g") (machine true) (fun _ _ => True)
      (Service.start
        { database := sampleDatabase, games := [sampleGame], clock := 20000000000 }) cfg ∧
    sampleGame.isFinished 20000000000 = true ∧
    ¬ submissionCount ⟨"ann"⟩ cfg.trace ≤ 1 := by
  have hrun : ((replaySubmissions ([.perform 0 usual, .perform 0 usual, .perform 1 usual,
      .perform 1 usual] ++ List.replicate 8 (.perform 0 usual) ++
      List.replicate 8 (.perform 1 usual)) fun _ _ => true).any fun cfg =>
        submissionCount ⟨"ann"⟩ cfg.trace = 2) = true := by
    decide +kernel
  obtain ⟨cfg, hcfg, hcount⟩ := (Option.any_eq_true _ _).mp hrun
  refine ⟨cfg, Service.reachable_of_replayIf (fun _ _ _ => trivial) hcfg, by decide, ?_⟩
  rw [of_decide_eq_true hcount]
  decide

end TriviaServer
