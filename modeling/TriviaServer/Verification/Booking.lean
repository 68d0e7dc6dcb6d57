import TriviaServer.Verification.Departure
import TriviaServer.Verification.Replays

/-! # Every result of a game is booked once

The players of a game leave one after the other, in any order and at any times. -/

namespace TriviaServer

open Interaction Interpreter

/-! ## A sequence of removals -/

/-- The given players are removed one after the other. The log holds the calls of each. -/
inductive Removals (g : String) : List LoggedUser → Managers →
    List (LoggedUser × List (Event operations)) → Managers → Prop where
  | nil (s) : Removals g [] s [] s
  | cons {user rest s t r s₁ log s'} :
      Exec (machine true) (GameManager.removePlayerFromGame g user) s t r s₁ →
      Removals g rest s₁ log s' → Removals g (user :: rest) s ((user, t) :: log) s'

/-- The removals along given outcomes of their operations. -/
def removeAll (g : String) : List (LoggedUser × List Choice) → Managers →
    Option (List (LoggedUser × List (Event operations)) × Managers)
  | [], s => some ([], s)
  | (user, cs) :: rest, s =>
      match interpreter.run (Op.admits true) (GameManager.removePlayerFromGame g user) cs s with
      | none => none
      | some (t, _, s₁) => (removeAll g rest s₁).map fun r => ((user, t) :: r.1, r.2)

theorem removals_of_removeAll {g : String} {plan : List (LoggedUser × List Choice)}
    {s s' : Managers} {log : List (LoggedUser × List (Event operations))}
    (h : removeAll g plan s = some (log, s')) : Removals g (plan.map Prod.fst) s log s' := by
  induction plan generalizing s log with
  | nil =>
      cases h
      exact .nil _
  | cons step rest ih =>
      obtain ⟨user, cs⟩ := step
      cases hrun : interpreter.run (Op.admits true)
          (GameManager.removePlayerFromGame g user) cs s with
      | none => simp [removeAll, hrun] at h
      | some out =>
          obtain ⟨t, r, s₁⟩ := out
          simp only [removeAll, hrun, Option.map_eq_some_iff, Prod.mk.injEq] at h
          obtain ⟨⟨log', s''⟩, hrest, rfl, rfl⟩ := h
          exact .cons (exec_of_run hrun) (ih hrest)

/-- The data submitted for a player by any of the removals. -/
def loggedSubmissions (g : String) (p : LoggedUser)
    (log : List (LoggedUser × List (Event operations))) : List GameData :=
  log.flatMap fun e => submissionsOf g p e.2

/-- A game that nobody has left yet: all its players are online, and none is marked. -/
structure Game.Untouched (gm : Game) : Prop where
  online_nodup : gm.onlinePlayers.Nodup
  online_iff : ∀ p, p ∈ gm.onlinePlayers ↔ gm.players[p]? ≠ none
  unmarked : ∀ (p : LoggedUser) data, gm.players[p]? = some data →
    data.isScoreSubmittedToDB = false ∧ data.isPunished = false

theorem Game.new_untouched (questions : List Question) {players : List LoggedUser}
    (uuid : String) (timePerQuestion : UInt32) (now : ℕ) (h : players.Nodup) :
    (Game.new questions players uuid timePerQuestion now).Untouched := by
  refine ⟨h, fun p => ?_, fun p data hp => ?_⟩
  · rw [Game.new_players]
    by_cases hp : p ∈ players <;> simp [hp, Game.new]
  · rw [Game.new_players] at hp
    split_ifs at hp
    cases hp
    exact ⟨rfl, rfl⟩

/-- The same answers and times; the flags may differ. -/
def GameData.SameAnswers (data data' : GameData) : Prop :=
  data.answers = data'.answers ∧ data.timePerQuestion = data'.timePerQuestion

theorem GameData.flag_sameAnswers (data : GameData) (punish submit : Bool) :
    (data.flag punish submit).SameAnswers data := ⟨rfl, rfl⟩

theorem GameData.SameAnswers.trans {a b c : GameData} (h : a.SameAnswers b)
    (h' : b.SameAnswers c) : a.SameAnswers c := ⟨h.1.trans h'.1, h.2.trans h'.2⟩

/-- How a player's entry and the log stand after some removals at the time `now`: nothing has
happened to it yet, or it has been submitted once, by the player's own removal or, after the
end, by somebody else's. -/
inductive Entry (g : String) (gm₀ : Game) (p : LoggedUser) (data₀ : GameData)
    (log : List (LoggedUser × List (Event operations))) (now : ℕ) (data : GameData) : Prop where
  | untouched : p ∉ log.map Prod.fst → data.isScoreSubmittedToDB = false →
      data.isPunished = false → loggedSubmissions g p log = [] → Entry g gm₀ p data₀ log now data
  | own (x : GameData) (t : List (Event operations)) : data.isScoreSubmittedToDB = true →
      loggedSubmissions g p log = [x] → x.SameAnswers data₀ →
      (∀ t', (p, t') ∈ log → t' = t) → (p, t) ∈ log →
      (readingsOf t).head? = some (!x.isPunished) → Entry g gm₀ p data₀ log now data
  | other (x : GameData) : p ∉ log.map Prod.fst → data.isScoreSubmittedToDB = true →
      loggedSubmissions g p log = [x] → x.SameAnswers data₀ → x.isPunished = false →
      gm₀.isFinished now = true → Entry g gm₀ p data₀ log now data

theorem loggedSubmissions_snoc (g : String) (p user : LoggedUser) (t : List (Event operations))
    (log : List (LoggedUser × List (Event operations))) :
    loggedSubmissions g p (log ++ [(user, t)]) =
      loggedSubmissions g p log ++ submissionsOf g p t := by
  simp [loggedSubmissions]

/-- The step of one player's entry when a player is removed. -/
theorem Entry.step {g : String} {gm₀ : Game} {p user : LoggedUser} {data₀ data : GameData}
    {log : List (LoggedUser × List (Event operations))} {now k₁ k₂ k₃ : ℕ}
    {t : List (Event operations)} (h : Entry g gm₀ p data₀ log now data)
    (hdata : data.SameAnswers data₀) (huser : user ∉ log.map Prod.fst)
    (hk₁ : now ≤ k₁) (hk₂ : k₁ ≤ k₂) (hk₃ : k₂ ≤ k₃)
    (hread : readingsOf t = [gm₀.isFinished k₁, gm₀.isFinished k₂, gm₀.isFinished k₃])
    (hsub : submissionsOf g p t = data.booked (decide (p = user)) (gm₀.isFinished k₁)
      (gm₀.isFinished k₂) (gm₀.isFinished k₃)) :
    Entry g gm₀ p data₀ (log ++ [(user, t)]) k₃
      (data.flag (decide (p = user) && !gm₀.isFinished k₁)
        ((decide (p = user) && !gm₀.isFinished k₂) || gm₀.isFinished k₃)) := by
  have hlog : ∀ t', (user, t') ∈ log ++ [(user, t)] → t' = t := by
    intro t' ht'
    rcases List.mem_append.mp ht' with ht' | ht'
    · exact absurd (List.mem_map_of_mem (f := Prod.fst) ht') huser
    · simpa using ht'
  have hmem : (user, t) ∈ log ++ [(user, t)] := by simp
  have hlast : gm₀.isFinished k₂ = true → gm₀.isFinished k₃ = true := Game.isFinished_mono hk₃
  have hhead : (readingsOf t).head? = some (gm₀.isFinished k₁) := by rw [hread]; rfl
  cases h with
  | untouched hp hs hpun hnone =>
      by_cases hpu : p = user
      · subst hpu
        simp only [decide_true, Bool.true_and] at hsub ⊢
        cases h₂ : gm₀.isFinished k₂ with
        | false =>
            refine .own (data.flag (!gm₀.isFinished k₁) true) t (by simp [GameData.flag]) ?_
              ((data.flag_sameAnswers _ _).trans hdata) hlog hmem ?_
            · simp [loggedSubmissions_snoc, hnone, hsub, GameData.booked, h₂]
            · simp [hhead, GameData.flag, hpun]
        | true =>
            refine .own (data.flag (!gm₀.isFinished k₁) false) t
              (by simp [GameData.flag, hlast h₂]) ?_
              ((data.flag_sameAnswers _ _).trans hdata) hlog hmem ?_
            · simp [loggedSubmissions_snoc, hnone, hsub, GameData.booked, h₂, hlast h₂,
                GameData.due, GameData.flag, hs]
            · simp [hhead, GameData.flag, hpun]
      · have hp' : p ∉ (log ++ [(user, t)]).map Prod.fst := by simpa [hpu] using hp
        cases h₃ : gm₀.isFinished k₃ with
        | false =>
            refine .untouched hp' ?_ ?_ ?_
            · simp [GameData.flag, hs, hpu]
            · simp [GameData.flag, hpun, hpu]
            · simp [loggedSubmissions_snoc, hnone, hsub, GameData.booked, hpu, h₃]
        | true =>
            refine .other (data.flag false false) hp' (by simp [GameData.flag]) ?_
              ((data.flag_sameAnswers _ _).trans hdata) (by simp [GameData.flag, hpun]) h₃
            simp [loggedSubmissions_snoc, hnone, hsub, GameData.booked, hpu, h₃, GameData.due,
              GameData.flag, hs]
  | own x t₀ hs hx hsame honly hin hpun =>
      have hpu : p ≠ user := by
        rintro rfl
        exact huser (List.mem_map_of_mem (f := Prod.fst) hin)
      refine .own x t₀ (by simp [GameData.flag, hs]) ?_ hsame ?_ (List.mem_append_left _ hin) hpun
      · simp [loggedSubmissions_snoc, hx, hsub, GameData.booked, hpu, GameData.due,
          GameData.flag, hs]
      · intro t' ht'
        rcases List.mem_append.mp ht' with ht' | ht'
        · exact honly t' ht'
        · exact absurd (Prod.mk.inj (List.mem_singleton.mp ht')).1 hpu
  | other x hp hs hx hsame hpun hfin =>
      have h₁ : gm₀.isFinished k₁ = true := Game.isFinished_mono hk₁ hfin
      have h₂ : gm₀.isFinished k₂ = true := Game.isFinished_mono hk₂ h₁
      have hdue : loggedSubmissions g p (log ++ [(user, t)]) = [x] := by
        simp [loggedSubmissions_snoc, hx, hsub, GameData.booked, GameData.due, GameData.flag, hs,
          h₂]
      by_cases hpu : p = user
      · subst hpu
        exact .own x t (by simp [GameData.flag, hs]) hdue hsame hlog hmem
          (by simp [hhead, h₁, hpun])
      · exact .other x (by simpa [hpu] using hp) (by simp [GameData.flag, hs]) hdue hsame hpun
          (hlast h₂)

/-! ## The run -/

/-- The game after the removals in the log, with the entries of its players. -/
def Game.after (gm₀ : Game) (log : List (LoggedUser × List (Event operations)))
    (players : Std.TreeMap LoggedUser GameData) : Game :=
  { gm₀ with
    onlinePlayers := gm₀.onlinePlayers.filter fun p => decide (p ∉ log.map Prod.fst)
    players }

/-- How the game `gm₀` of the state `s₀` stands after the removals in the log. -/
structure Progress (g : String) (gm₀ : Game) (s₀ : Managers)
    (log : List (LoggedUser × List (Event operations))) (s : Managers)
    (players : Std.TreeMap LoggedUser GameData) : Prop where
  nodup : (s.games.map Game.uuid).Nodup
  others : s.games.filter (·.uuid ≠ g) = s₀.games.filter (·.uuid ≠ g)
  present : (gm₀.after log players).onlinePlayers ≠ [] →
    s.game? g = some (gm₀.after log players)
  gone : (gm₀.after log players).onlinePlayers = [] → ∀ gm ∈ s.games, gm.uuid ≠ g
  keys : ∀ p : LoggedUser, players[p]? = none ↔ gm₀.players[p]? = none
  entries : ∀ (p : LoggedUser) data₀, gm₀.players[p]? = some data₀ →
    ∃ data, players[p]? = some data ∧ data.SameAnswers data₀ ∧
      Entry g gm₀ p data₀ log s.clock data

theorem Progress.start {g : String} {gm₀ : Game} {s₀ : Managers}
    (hg : s₀.game? g = some gm₀) (hnodup : (s₀.games.map Game.uuid).Nodup)
    (hfresh : gm₀.Untouched) (honline : gm₀.onlinePlayers ≠ []) :
    Progress g gm₀ s₀ [] s₀ gm₀.players := by
  have hafter : gm₀.after [] gm₀.players = gm₀ := by
    simp [Game.after]
  refine ⟨hnodup, rfl, fun _ => by rw [hafter, hg], fun h => absurd (hafter ▸ h) honline,
    fun _ => Iff.rfl, fun p data₀ hp => ?_⟩
  obtain ⟨hs, hpun⟩ := hfresh.unmarked p data₀ hp
  exact ⟨data₀, hp, ⟨rfl, rfl⟩, .untouched (by simp) hs hpun rfl⟩

/-- One removal carries the progress on. -/
theorem Progress.step {g : String} {gm₀ : Game} {s₀ s : Managers} {user : LoggedUser}
    {log : List (LoggedUser × List (Event operations))}
    {players players' : Std.TreeMap LoggedUser GameData} {k₁ k₂ k₃ : ℕ} {db : Database}
    {t : List (Event operations)} {r : Option Error}
    (h : Progress g gm₀ s₀ log s players) (huuid : gm₀.uuid = g)
    (hg : s.game? g = some (gm₀.after log players)) (huser : user ∉ log.map Prod.fst)
    (hd : Departure true g user s (gm₀.after log players) k₁ k₂ k₃ players' db t r) :
    Progress g gm₀ s₀ (log ++ [(user, t)])
      (s.depart g user (gm₀.after log players) k₃ players' db) players' := by
  have hafter : ((gm₀.after log players).removePlayer user).setPlayers players' =
      gm₀.after (log ++ [(user, t)]) players' := by
    simp only [Game.after, Game.removePlayer, Game.setPlayers, List.filter_filter, List.map_append,
      List.map_cons, List.map_nil, List.mem_append, List.mem_singleton, not_or]
    congr 2
    funext p
    by_cases hp : p = user <;> simp [hp]
  have huuid : (gm₀.after log players).uuid = g := huuid
  refine ⟨depart_nodup huuid h.nodup, (depart_others huuid).trans h.others, ?_, ?_, ?_, ?_⟩
  · intro hleft
    rw [← hafter] at hleft ⊢
    exact depart_present hg hleft
  · intro hleft
    rw [← hafter] at hleft
    exact depart_gone huuid h.nodup hleft
  · intro p
    exact (hd.flags.eq_none).trans (h.keys p)
  · intro p data₀ hp
    obtain ⟨data, hdata, hsame, hentry⟩ := h.entries p data₀ hp
    have hget := hd.flags p
    have hplayers : (gm₀.after log players).players[p]? = some data := hdata
    rw [hplayers] at hget
    refine ⟨_, hget, (data.flag_sameAnswers _ _).trans hsame, ?_⟩
    rw [depart_clock]
    refine hentry.step hsame huser hd.clock₁ hd.clock₂ hd.clock₃ hd.readings ?_
    rw [hd.submissions, hplayers]
    rfl

/-- What a completed removal has done. -/
theorem exec_departure {g : String} {gm : Game} {user : LoggedUser} {s s' : Managers}
    {t : List (Event operations)} {r : Option Error} (hg : s.game? g = some gm)
    (hx : Exec (machine true) (GameManager.removePlayerFromGame g user) s t r s') :
    ∃ k₁ k₂ k₃ players db, Departure true g user s gm k₁ k₂ k₃ players db t r ∧
      s' = s.depart g user gm k₃ players db :=
  hx.of_wp (E := fun _ => True) (wp_removePlayerFromGame
    (Q := fun t r s' => ∃ k₁ k₂ k₃ players db,
      Departure true g user s gm k₁ k₂ k₃ players db t r ∧ s' = s.depart g user gm k₃ players db)
    hg (fun _ _ => trivial) trivial
    fun k₁ k₂ k₃ players db _ _ hd => ⟨k₁, k₂, k₃, players, db, hd, rfl⟩)

theorem Progress.game? {g : String} {gm₀ : Game} {s₀ s : Managers} {user : LoggedUser}
    {log : List (LoggedUser × List (Event operations))}
    {players : Std.TreeMap LoggedUser GameData} (h : Progress g gm₀ s₀ log s players)
    (hmem : user ∈ gm₀.onlinePlayers) (huser : user ∉ log.map Prod.fst) :
    s.game? g = some (gm₀.after log players) := by
  refine h.present (List.ne_nil_of_mem (a := user) ?_)
  exact List.mem_filter.mpr ⟨hmem, by simpa using huser⟩

theorem Removals.progress {g : String} {gm₀ : Game} {s₀ s s' : Managers}
    {order : List LoggedUser} {log log' : List (LoggedUser × List (Event operations))}
    {players : Std.TreeMap LoggedUser GameData} (hrun : Removals g order s log' s')
    (h : Progress g gm₀ s₀ log s players) (huuid : gm₀.uuid = g)
    (hmem : ∀ p ∈ order, p ∈ gm₀.onlinePlayers) (hnodup : (log.map Prod.fst ++ order).Nodup) :
    ∃ players', Progress g gm₀ s₀ (log ++ log') s' players' ∧ log'.map Prod.fst = order := by
  induction hrun generalizing log players with
  | nil s => exact ⟨players, by simpa using h, rfl⟩
  | @cons user rest s t r s₁ log' s' hx _ ih =>
      have huser : user ∉ log.map Prod.fst := by
        intro hin
        exact (List.nodup_append.mp hnodup).2.2 user hin user List.mem_cons_self rfl
      have hg := h.game? (hmem user List.mem_cons_self) huser
      obtain ⟨k₁, k₂, k₃, players', db, hd, rfl⟩ := exec_departure hg hx
      have hstep := h.step huuid hg huser hd
      have hnodup' : ((log ++ [(user, t)]).map Prod.fst ++ rest).Nodup := by simpa using hnodup
      obtain ⟨players'', hrest, hlog⟩ :=
        ih hstep (fun p hp => hmem p (List.mem_cons_of_mem _ hp)) hnodup'
      exact ⟨players'', by simpa using hrest, by simp [hlog]⟩

/-- However the players of a game that nobody has left are removed, in whatever order and at
whatever times: everybody removed has been submitted exactly once, with the answers given and
punished exactly when the first reading of that player's own removal found the game running;
the game is there until the last removal, which erases it; the other games are untouched; and
no removal still to come can throw, unless the booking divides by zero. -/
theorem removals_book_each_once {g : String} {gm₀ : Game} {s₀ s : Managers}
    {removed left : List LoggedUser} {log : List (LoggedUser × List (Event operations))}
    (hg : s₀.game? g = some gm₀) (hnodup : (s₀.games.map Game.uuid).Nodup)
    (hfresh : gm₀.Untouched) (horder : (removed ++ left).Perm gm₀.onlinePlayers)
    (hrun : Removals g removed s₀ log s) :
    log.map Prod.fst = removed ∧
    (∀ p ∈ removed, ∃ data₀ x t readings, gm₀.players[p]? = some data₀ ∧
      loggedSubmissions g p log = [x] ∧ x.SameAnswers data₀ ∧ (p, t) ∈ log ∧
      readingsOf t = (!x.isPunished) :: readings) ∧
    (left ≠ [] → ∃ gm, s.game? g = some gm) ∧
    (removed ≠ [] → left = [] → s.games = s₀.games.filter (·.uuid ≠ g)) ∧
    s.games.filter (·.uuid ≠ g) = s₀.games.filter (·.uuid ≠ g) ∧
    ∀ user ∈ left, ∀ e, Faults (machine true) (GameManager.removePlayerFromGame g user) s e →
      e = .undefinedArithmetic := by
  by_cases honline : gm₀.onlinePlayers = []
  · obtain ⟨rfl, rfl⟩ : removed = [] ∧ left = [] := by
      simpa [honline] using horder
    cases hrun
    simp
  have huuid : gm₀.uuid = g := game?_uuid hg
  have hall : (removed ++ left).Nodup := horder.nodup_iff.mpr hfresh.online_nodup
  have hmem : ∀ p ∈ removed ++ left, p ∈ gm₀.onlinePlayers := fun p hp => horder.mem_iff.mp hp
  obtain ⟨players, hend, hlog⟩ := hrun.progress (Progress.start hg hnodup hfresh honline) huuid
    (fun p hp => hmem p (List.mem_append_left _ hp))
    (by simpa using (List.nodup_append.mp hall).1)
  rw [List.nil_append] at hend
  have hdisjoint : ∀ user ∈ left, user ∉ log.map Prod.fst := by
    intro user hu hin
    exact (List.nodup_append.mp hall).2.2 user (hlog ▸ hin) user hu rfl
  have hpresent : ∀ user ∈ left, s.game? g = some (gm₀.after log players) := fun user hu =>
    hend.game? (hmem user (List.mem_append_right _ hu)) (hdisjoint user hu)
  refine ⟨hlog, ?_, ?_, ?_, hend.others, ?_⟩
  · intro p hp
    have hkey := (hfresh.online_iff p).mp (hmem p (List.mem_append_left _ hp))
    obtain ⟨data₀, hdata₀⟩ := Option.ne_none_iff_exists'.mp hkey
    obtain ⟨data, -, -, hentry⟩ := hend.entries p data₀ hdata₀
    have hplog : p ∈ log.map Prod.fst := hlog ▸ hp
    cases hentry with
    | untouched hnot => exact absurd hplog hnot
    | other x hnot => exact absurd hplog hnot
    | own x t _ hx hsame _ hin hread =>
        obtain ⟨readings, hreadings⟩ := List.head?_eq_some_iff.mp hread
        exact ⟨data₀, x, t, readings, hdata₀, hx, hsame, hin, hreadings⟩
  · intro hleft
    obtain ⟨user, hu⟩ := List.exists_mem_of_ne_nil left hleft
    exact ⟨_, hpresent user hu⟩
  · intro _ hleft
    have hgone := hend.gone ?_
    · rw [← hend.others]
      exact (List.filter_eq_self.mpr fun gm hgm => by simpa using hgone gm hgm).symm
    · refine List.filter_eq_nil_iff.mpr fun p hp => ?_
      have hin : p ∈ log.map Prod.fst := by
        rw [hlog]
        simpa [hleft] using horder.mem_iff.mpr hp
      simpa using hin
  · intro user hu e he
    have huserkey : gm₀.players[user]? ≠ none :=
      (hfresh.online_iff user).mp (hmem user (List.mem_append_right _ hu))
    exact he.of_wp (wp_removePlayerFromGame (E := fun e => e = .undefinedArithmetic)
      (Q := fun _ _ _ => True) (hpresent user hu)
      (fun hnone _ => absurd ((hend.keys user).mp hnone) huserkey) rfl
      fun _ _ _ _ _ _ _ _ => trivial)

/-- A game of two questions of ten seconds for `ann` and `bob`, started at time 0. -/
def pairGame : Game :=
  .new [⟨"q0", ["a", "b", "c", "d"], 0⟩, ⟨"q1", ["a", "b", "c", "d"], 1⟩] [⟨"ann"⟩, ⟨"bob"⟩]
    "game" 10 0

def pairState : Managers := { games := [pairGame], database := sampleDatabase }

/-- `ann` leaves at once, `bob` half a minute later, when the game has ended. -/
theorem removals_book_each_once_pair :
    ∃ log s, Removals "game" [⟨"ann"⟩, ⟨"bob"⟩] pairState log s ∧
      (∀ p ∈ [⟨"ann"⟩, ⟨"bob"⟩], ∃ x, loggedSubmissions "game" p log = [x]) ∧ s.games = [] := by
  have hrun : (removeAll "game"
      [(⟨"ann"⟩, List.replicate 12 {}), (⟨"bob"⟩, { delay := 30000000000 } :: List.replicate 11 {})]
      pairState).isSome = true := by decide +kernel
  obtain ⟨⟨log, s⟩, hlog⟩ := Option.isSome_iff_exists.mp hrun
  have hremovals := removals_of_removeAll hlog
  have hgame : pairState.game? "game" = some pairGame := rfl
  have horder : (([⟨"ann"⟩, ⟨"bob"⟩] : List LoggedUser) ++ []).Perm pairGame.onlinePlayers := by
    decide
  obtain ⟨-, hbooked, -, hgone, -⟩ := removals_book_each_once hgame
    (by decide) (Game.new_untouched _ _ _ _ (by decide)) horder hremovals
  refine ⟨log, s, hremovals, fun p hp => ?_, hgone (by simp) rfl⟩
  obtain ⟨_, x, _, _, _, hx, -⟩ := hbooked p hp
  exact ⟨x, hx⟩

end TriviaServer
