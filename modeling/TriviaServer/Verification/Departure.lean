import TriviaServer.Verification.Reading

/-! # Leaving a game

`removePlayerFromGame` reads the clock three times. What it does to the game and what it
submits is a function of the three answers. -/

namespace TriviaServer

open Interaction
open Program (Only)

variable {d : Bool} {E : Fault → Prop} {s : Managers}

/-! ## What a list of calls says about a game -/

/-- The data submitted for a player of a game, in order. -/
def submissionsOf (g : String) (user : LoggedUser) (t : List (Event operations)) :
    List GameData :=
  t.filterMap fun e =>
    match e with
    | ⟨.game (.submitting g' user' data), _⟩ =>
        if g' = g ∧ user' = user then some data else none
    | _ => none

/-- The answers of the `isFinished` calls, in order. -/
def readingsOf (t : List (Event operations)) : List Bool :=
  t.filterMap fun e =>
    match e with
    | ⟨.game (.isFinished _), finished⟩ => some finished
    | _ => none

@[simp] theorem submissionsOf_append (g : String) (user : LoggedUser)
    (t t' : List (Event operations)) :
    submissionsOf g user (t ++ t') = submissionsOf g user t ++ submissionsOf g user t' :=
  List.filterMap_append

@[simp] theorem readingsOf_append (t t' : List (Event operations)) :
    readingsOf (t ++ t') = readingsOf t ++ readingsOf t' :=
  List.filterMap_append

theorem submissionsOf_quiet {t : List (Event operations)} (ht : ∀ e ∈ t, e.1.Quiet E)
    (g : String) (user : LoggedUser) : submissionsOf g user t = [] := by
  refine List.filterMap_eq_nil_iff.mpr fun e he => ?_
  have hq := ht e he
  split
  · exact hq.elim
  · rfl

theorem readingsOf_quiet {t : List (Event operations)} (ht : ∀ e ∈ t, e.1.Quiet E) :
    readingsOf t = [] := by
  refine List.filterMap_eq_nil_iff.mpr fun e he => ?_
  have hq := ht e he
  split
  · exact hq.elim
  · rfl

@[simp] theorem submissionsOf_nil (g : String) (user : LoggedUser) :
    submissionsOf g user [] = [] := rfl

@[simp] theorem readingsOf_nil : readingsOf [] = [] := rfl

@[simp] theorem submissionsOf_submitting (g : String) (p : LoggedUser) (data : GameData)
    (q : LoggedUser) (t : List (Event operations)) :
    submissionsOf g q (event (.game (.submitting g p data)) () :: t) =
      (if p = q then [data] else []) ++ submissionsOf g q t := by
  by_cases hp : p = q <;> simp [submissionsOf, event, hp]

@[simp] theorem submissionsOf_other {o : Op} (ho : ∀ g p data, o ≠ .game (.submitting g p data))
    (r : o.Answer) (g : String) (q : LoggedUser) (t : List (Event operations)) :
    submissionsOf g q (event o r :: t) = submissionsOf g q t := by
  refine List.filterMap_cons_none ?_
  unfold event
  split
  · next heq =>
      cases heq
      exact absurd rfl (ho _ _ _)
  · rfl

@[simp] theorem readingsOf_isFinished (g : String) (finished : Bool)
    (t : List (Event operations)) :
    readingsOf (event (.game (.isFinished g)) finished :: t) = finished :: readingsOf t := rfl

@[simp] theorem readingsOf_other {o : Op} (ho : ∀ g, o ≠ .game (.isFinished g))
    (r : o.Answer) (t : List (Event operations)) :
    readingsOf (event o r :: t) = readingsOf t := by
  refine List.filterMap_cons_none ?_
  unfold event
  split
  · next heq =>
      cases heq
      exact absurd rfl (ho _)
  · rfl

/-! ## The flags of the players -/

/-- Setting the flags that are due; a flag is never taken back. -/
def GameData.flag (punish submit : Bool) (data : GameData) : GameData :=
  { data with
    isPunished := data.isPunished || punish
    isScoreSubmittedToDB := data.isScoreSubmittedToDB || submit }

/-- The same players, each with the flags that are due for them. -/
def Flagged (players players' : Std.TreeMap LoggedUser GameData)
    (punish submit : LoggedUser → Bool) : Prop :=
  ∀ p, players'[p]? = players[p]?.map (GameData.flag (punish p) (submit p))

theorem Flagged.refl (players : Std.TreeMap LoggedUser GameData) :
    Flagged players players (fun _ => false) fun _ => false := by
  intro p
  cases players[p]? <;> simp [GameData.flag]

theorem Flagged.trans {m₁ m₂ m₃ : Std.TreeMap LoggedUser GameData}
    {a b a' b' : LoggedUser → Bool} (h : Flagged m₁ m₂ a b) (h' : Flagged m₂ m₃ a' b') :
    Flagged m₁ m₃ (fun p => a p || a' p) fun p => b p || b' p := by
  intro p
  rw [h' p, h p]
  cases m₁[p]? <;> simp [GameData.flag, Bool.or_assoc]

/-- Flags matter only as far as the entry does not have them yet. -/
theorem Flagged.congr {m m' : Std.TreeMap LoggedUser GameData} {a b a' b' : LoggedUser → Bool}
    (h : Flagged m m' a b)
    (hab : ∀ p (data : GameData), m[p]? = some data →
      data.flag (a p) (b p) = data.flag (a' p) (b' p)) :
    Flagged m m' a' b' := by
  intro p
  rw [h p]
  cases hp : m[p]? with
  | none => rfl
  | some data => exact congrArg some (hab p data hp)

theorem flagged_insert {m : Std.TreeMap LoggedUser GameData} {user : LoggedUser}
    {data : GameData} (hu : m[user]? = some data) (a b : Bool) :
    Flagged m (m.insert user (data.flag a b)) (fun p => decide (p = user) && a)
      fun p => decide (p = user) && b := by
  intro p
  rw [Std.TreeMap.getElem?_insert]
  by_cases hp : p = user
  · simp [hp, hu]
  · have hne : compare user p ≠ .eq := fun he => hp (Std.LawfulEqCmp.eq_of_compare he).symm
    cases m[p]? <;> simp [hne, hp, GameData.flag]

/-- One player is punished. -/
theorem flagged_punish {m : Std.TreeMap LoggedUser GameData} {user : LoggedUser}
    {data : GameData} (hu : m[user]? = some data) :
    Flagged m (m.insert user { data with isPunished := true }) (fun p => decide (p = user))
      fun _ => false := by
  simpa [GameData.flag] using flagged_insert hu true false

/-- One player's result counts as submitted. -/
theorem flagged_submit {m : Std.TreeMap LoggedUser GameData} {user : LoggedUser}
    {data : GameData} (hu : m[user]? = some data) :
    Flagged m (m.insert user { data with isScoreSubmittedToDB := true }) (fun _ => false)
      fun p => decide (p = user) := by
  simpa [GameData.flag] using flagged_insert hu false true

theorem Flagged.eq_none {m m' : Std.TreeMap LoggedUser GameData} {a b : LoggedUser → Bool}
    (h : Flagged m m' a b) {p : LoggedUser} : m'[p]? = none ↔ m[p]? = none := by
  rw [h p, Option.map_eq_none_iff]

/-! ## Using a game -/

/-- The game behind a reference. -/
def Managers.game? (s : Managers) (g : String) : Option Game := s.games.find? (·.uuid = g)

def Managers.setGame (s : Managers) (g : String) (gm : Game) : Managers :=
  { s with games := s.games.map fun g' => if g'.uuid = g then gm else g' }

/-- The same game with other entries for its players. -/
def Game.setPlayers (gm : Game) (players : Std.TreeMap LoggedUser GameData) : Game :=
  { gm with players }

@[simp] theorem Game.setPlayers_players (gm : Game) (players : Std.TreeMap LoggedUser GameData) :
    (gm.setPlayers players).players = players := rfl

@[simp] theorem Game.setPlayers_setPlayers (gm : Game)
    (players players' : Std.TreeMap LoggedUser GameData) :
    (gm.setPlayers players).setPlayers players' = gm.setPlayers players' := rfl

theorem Game.setPlayers_removePlayer (gm : Game) (players : Std.TreeMap LoggedUser GameData)
    (user : LoggedUser) :
    (gm.setPlayers players).removePlayer user = (gm.removePlayer user).setPlayers players := rfl

@[simp] theorem Game.isFinished_setPlayers (gm : Game)
    (players : Std.TreeMap LoggedUser GameData) (now : ℕ) :
    (gm.setPlayers players).isFinished now = gm.isFinished now := rfl

@[simp] theorem Game.isFinished_removePlayer (gm : Game) (user : LoggedUser) (now : ℕ) :
    (gm.removePlayer user).isFinished now = gm.isFinished now := rfl

@[simp] theorem Game.setPlayers_self (gm : Game) : gm.setPlayers gm.players = gm := rfl

theorem setGame_setDatabase (s : Managers) (db : Database) (g : String) (gm : Game) :
    (s.setDatabase db).setGame g gm = (s.setGame g gm).setDatabase db := rfl

theorem setGame_setClock (s : Managers) (k : ℕ) (g : String) (gm : Game) :
    (s.setClock k).setGame g gm = (s.setGame g gm).setClock k := rfl

theorem game?_uuid {g : String} {gm : Game} (h : s.game? g = some gm) : gm.uuid = g := by
  simpa using List.find?_some h

/-- Replacing a game by one of the same uuid does not change which games answer to it. -/
theorem find?_map_replace (games : List Game) (g : String) {gm' : Game} (hg : gm'.uuid = g) :
    (games.map fun g' => if g'.uuid = g then gm' else g').find? (·.uuid = g) =
      (games.find? (·.uuid = g)).map fun _ => gm' := by
  induction games with
  | nil => rfl
  | cons g' rest ih =>
      by_cases h : g'.uuid = g
      · simp [h, hg]
      · simp [h, ih]

theorem game?_setGame {g : String} {gm gm' : Game} (h : s.game? g = some gm)
    (hg : gm'.uuid = g) : (s.setGame g gm').game? g = some gm' := by
  have hfind : s.games.find? (·.uuid = g) = some gm := h
  rw [Managers.game?, Managers.setGame, find?_map_replace _ _ hg, hfind]
  rfl

theorem setGame_setGame (s : Managers) {g : String} (gm' gm'' : Game) (hg : gm'.uuid = g) :
    (s.setGame g gm').setGame g gm'' = s.setGame g gm'' := by
  unfold Managers.setGame
  simp only [List.map_map]
  congr 1
  refine List.map_congr_left fun g' _ => ?_
  by_cases h : g'.uuid = g <;> simp [h, hg]

theorem readGame_ok {α : Type} {g : String} {f : Game → Except Fault α} {a : α} {s' : Managers}
    (h : GameOp.readGame s g f = .ok (a, s')) :
    s' = s ∧ ∃ gm, s.game? g = some gm ∧ f gm = .ok a := by
  refine ⟨readGame_eq h, ?_⟩
  unfold GameOp.readGame at h
  split at h
  · cases h
  · next gm hgm =>
      cases hf : f gm with
      | error e => simp [hf, Except.map] at h
      | ok b =>
          simp only [hf, Except.map, Except.ok.injEq, Prod.mk.injEq] at h
          exact ⟨gm, hgm, by rw [hf, h.1]⟩

theorem writeGame_ok {α : Type} {g : String} {f : Game → Except Fault (α × Game)} {a : α}
    {s' : Managers} (h : GameOp.writeGame s g f = .ok (a, s')) :
    ∃ gm gm', s.game? g = some gm ∧ f gm = .ok (a, gm') ∧ s' = s.setGame g gm' := by
  unfold GameOp.writeGame at h
  split at h
  · cases h
  · next gm hgm =>
      cases hf : f gm with
      | error e => simp [hf, Except.map] at h
      | ok b =>
          simp only [hf, Except.map, Except.ok.injEq, Prod.mk.injEq] at h
          exact ⟨gm, b.2, hgm, by rw [hf, ← h.1], h.2.symm⟩

theorem updatePlayer_ok {gm gm' : Game} {user : LoggedUser} {f : GameData → GameData} {r : Unit}
    (h : (gm.updatePlayer user f).map ((), ·) = .ok (r, gm')) :
    ∃ data, gm.players[user]? = some data ∧
      gm' = gm.setPlayers (gm.players.insert user (f data)) := by
  unfold Game.updatePlayer at h
  cases hu : gm.players[user]? with
  | none => simp [hu, Except.map] at h
  | some data =>
      simp only [hu, Except.map, Except.ok.injEq, Prod.mk.injEq, true_and] at h
      exact ⟨data, rfl, h.symm⟩

theorem any_uuid_of_game? {g : String} {gm : Game} (h : s.game? g = some gm) :
    s.games.any (·.uuid = g) = true :=
  List.any_eq_true.mpr ⟨gm, List.mem_of_find?_eq_some h, by simpa using game?_uuid h⟩

section Using

variable {g : String} {gm : Game} (hg : s.game? g = some gm)

include hg

theorem wp_isFinished {Q : List (Event operations) → Bool → Managers → Prop}
    (h : ∀ now, s.clock ≤ now →
      Q [event (.game (.isFinished g)) (gm.isFinished now)] (gm.isFinished now)
        (s.setClock now)) :
    wp (machine d) E (Action.game (.isFinished g)) Q s := by
  rw [wp_game]
  intro c
  have hfind : (GameOp.tick c s).games.find? (·.uuid = g) = some gm := hg
  simp only [GameOp.exec, GameOp.readGame, hfind, ensures_map, ensures_ok]
  exact h (s.clock + c.delay) (Nat.le_add_right ..)

theorem wp_getPlayersResults
    {Q : List (Event operations) → Std.TreeMap LoggedUser GameData → Managers → Prop}
    (h : Q [event (.game (.getPlayersResults g)) gm.players] gm.players s) :
    wp (machine d) E (Action.game (.getPlayersResults g)) Q s := by
  rw [wp_game]
  intro c
  have hfind : s.games.find? (·.uuid = g) = some gm := hg
  simpa only [GameOp.exec, GameOp.readGame, hfind, ensures_map, ensures_ok] using h

theorem wp_getOnlinePlayers
    {Q : List (Event operations) → List LoggedUser → Managers → Prop}
    (h : Q [event (.game (.getOnlinePlayers g)) gm.onlinePlayers] gm.onlinePlayers s) :
    wp (machine d) E (Action.game (.getOnlinePlayers g)) Q s := by
  rw [wp_game]
  intro c
  have hfind : s.games.find? (·.uuid = g) = some gm := hg
  simpa only [GameOp.exec, GameOp.readGame, hfind, ensures_map, ensures_ok] using h

theorem wp_getGameById {Q : List (Event operations) → String → Managers → Prop}
    (h : Q [event (.game (.getGameById g)) ()] g s) :
    wp (machine d) E (GameManager.getGameById g) Q s := by
  unfold GameManager.getGameById
  rw [wp_bind, wp_game]
  intro c
  simpa only [GameOp.exec, any_uuid_of_game? hg, if_true, ensures_ok, wp_pure,
    List.append_nil] using h

theorem wp_eraseGame {Q : List (Event operations) → Unit → Managers → Prop}
    (h : Q [event (.game (.eraseGame g)) ()] () { s with games := s.games.eraseP (·.uuid = g) }) :
    wp (machine d) E (Action.game (.eraseGame g)) Q s := by
  rw [wp_game]
  intro c
  simpa only [GameOp.exec, any_uuid_of_game? hg, if_true, ensures_ok] using h

theorem wp_removePlayer {user : LoggedUser} {Q : List (Event operations) → Unit → Managers → Prop}
    (h : Q [event (.game (.removePlayer g user)) ()] () (s.setGame g (gm.removePlayer user))) :
    wp (machine d) E (Action.game (.removePlayer g user)) Q s := by
  rw [wp_game]
  intro c
  have hfind : s.games.find? (·.uuid = g) = some gm := hg
  simp only [GameOp.exec, GameOp.writeGame, hfind, ensures_map, ensures_ok]
  exact h

/-- Both flags are set by a change of one player's data. -/
theorem ensures_updatePlayer {user : LoggedUser} {f : GameData → GameData}
    {Q : Unit → Managers → Prop} (hE : gm.players[user]? = none → E .playerNotFound)
    (h : ∀ data, gm.players[user]? = some data →
      Q () (s.setGame g (gm.setPlayers (gm.players.insert user (f data))))) :
    Ensures E (fun x => Q x.1 x.2)
      (GameOp.writeGame s g fun g => (g.updatePlayer user f).map ((), ·)) := by
  have hfind : s.games.find? (·.uuid = g) = some gm := hg
  simp only [GameOp.writeGame, hfind, ensures_map]
  unfold Game.updatePlayer
  cases hu : gm.players[user]? with
  | none => exact hE hu
  | some data => exact h data hu

theorem wp_punishPlayer {user : LoggedUser}
    {Q : List (Event operations) → Unit → Managers → Prop}
    (hE : gm.players[user]? = none → E .playerNotFound)
    (h : ∀ players, Flagged gm.players players (fun p => decide (p = user)) (fun _ => false) →
      Q [event (.game (.punishPlayer g user)) ()] () (s.setGame g (gm.setPlayers players))) :
    wp (machine d) E (Action.game (.punishPlayer g user)) Q s := by
  rw [wp_game]
  intro c
  exact ensures_updatePlayer (Q := fun r => Q [event (.game (.punishPlayer g user)) r] r) hg hE
    fun data hu => h _ (flagged_punish hu)

theorem wp_markUserResultsAsSubmittedToDB {user : LoggedUser}
    {Q : List (Event operations) → Unit → Managers → Prop}
    (hE : gm.players[user]? = none → E .playerNotFound)
    (h : ∀ players, Flagged gm.players players (fun _ => false) (fun p => decide (p = user)) →
      Q [event (.game (.markUserResultsAsSubmittedToDB g user)) ()] ()
        (s.setGame g (gm.setPlayers players))) :
    wp (machine d) E (Action.game (.markUserResultsAsSubmittedToDB g user)) Q s := by
  rw [wp_game]
  intro c
  exact ensures_updatePlayer
    (Q := fun r => Q [event (.game (.markUserResultsAsSubmittedToDB g user)) r] r) hg hE
    fun data hu => h _ (flagged_submit hu)

end Using

theorem wp_submitting {g : String} {user : LoggedUser} {data : GameData}
    {Q : List (Event operations) → Unit → Managers → Prop}
    (h : Q [event (.game (.submitting g user data)) ()] () s) :
    wp (machine d) E (Action.game (.submitting g user data)) Q s := by
  rw [wp_game]
  exact fun _ => h

theorem Game.isFinished_mono {gm : Game} {k k' : ℕ} (hk : k ≤ k') (h : gm.isFinished k = true) :
    gm.isFinished k' = true := by
  unfold Game.isFinished Game.timeSinceGameStart at *
  rw [decide_eq_true_eq] at *
  exact h.trans (Nat.div_le_div_right (Nat.sub_le_sub_right hk _))

theorem Game.isFinished_false {gm : Game} {k k' : ℕ} (hk : k ≤ k')
    (h : gm.isFinished k' = false) : gm.isFinished k = false :=
  Bool.eq_false_iff.mpr fun htrue => Bool.eq_false_iff.mp h (Game.isFinished_mono hk htrue)

/-- A new game has an entry for exactly the given players, all alike. -/
theorem Game.new_players (questions : List Question) (players : List LoggedUser)
    (uuid : String) (timePerQuestion : UInt32) (now : ℕ) (p : LoggedUser) :
    (Game.new questions players uuid timePerQuestion now).players[p]? =
      if p ∈ players then some (GameData.new questions timePerQuestion) else none := by
  have hfold : ∀ m : Std.TreeMap LoggedUser GameData,
      (players.foldl (fun m player => m.insertIfNew player
        (GameData.new questions timePerQuestion)) m)[p]? =
      m[p]?.or (if p ∈ players then some (GameData.new questions timePerQuestion)
        else none) := by
    induction players with
    | nil => simp
    | cons user rest ih =>
        intro m
        rw [List.foldl_cons, ih, Std.TreeMap.getElem?_insertIfNew]
        by_cases hp : p = user
        · subst hp
          cases hm : m[p]? <;> simp [Std.TreeMap.mem_iff_isSome_getElem?, hm]
        · have hne : compare user p ≠ .eq := fun he => hp (Std.LawfulEqCmp.eq_of_compare he).symm
          simp [hne, hp]
  simpa [Game.new] using hfold ∅

/-! ## Booking one player -/

theorem joined_ne_nil {db : Database} {name : String} (h : name ∈ db.accounts.map Prod.snd) :
    ∃ r ∈ db.joined, r.1.username = name := by
  simp only [Database.accounts, List.map_map, List.mem_map, Function.comp_apply] at h
  obtain ⟨u, hu, rfl⟩ := h
  have hid : u.id ∈ db.statistics.map Statistics.userId := by
    rw [db.rows_eq]
    exact List.mem_map_of_mem hu
  obtain ⟨row, hrow, hrid⟩ := List.mem_map.mp hid
  refine ⟨(u, row), List.mem_flatMap.mpr ⟨u, hu, List.mem_map.mpr ⟨row, ?_, rfl⟩⟩, rfl⟩
  exact List.mem_filter.mpr ⟨hrow, by simp [hrid]⟩

theorem newAverage_error {stats : UserStatistics} {data : GameData} {e : Fault}
    (h : SqliteDatabase.newAverage stats data = .error e) : e = .undefinedArithmetic := by
  unfold SqliteDatabase.newAverage GameData.getAverageAnswerTime at h
  cases hs : stats.averageAnswerTime with
  | none =>
      simp only [hs] at h
      split_ifs at h <;> cases h <;> rfl
  | some average =>
      simp only [hs] at h
      split_ifs at h <;> cases h <;> rfl

/-- Booking touches nothing but the statistics, and succeeds for an account whose row can be
read and written. -/
theorem wp_submitGameStatistics {data : GameData} {name : String}
    {Q : List (Event operations) → Option Error → Managers → Prop} (hE : E .undefinedArithmetic)
    (h : ∀ t r db, (∀ e ∈ t, e.1.Quiet E) → db.accounts = s.database.accounts →
      (d = true → name ∈ s.database.accounts.map Prod.snd → r = none) →
      Q t r (s.setDatabase db)) :
    wp (machine d) E (SqliteDatabase.submitGameStatistics data name) Q s := by
  unfold SqliteDatabase.submitGameStatistics SqliteDatabase.getUserStatistics
  simp only [wp_bind]
  refine wp_db fun c r db hc hx => ?_
  have hdb : db.accounts = s.database.accounts :=
    DbOp.accounts_of_exec (E := E) (by exact trivial) hx
  match r with
  | none =>
      refine h _ _ db (by simp [Op.Quiet]) hdb fun hd _ => ?_
      rw [DbOp.exec_succeeds hd hc] at hx
      cases hx
  | some [] =>
      refine h _ _ db (by simp [Op.Quiet]) hdb fun hd hname => ?_
      obtain ⟨row, hrow, hrname⟩ := joined_ne_nil hname
      rw [DbOp.exec_succeeds hd hc] at hx
      have hempty : s.database.joined.filter (·.1.username = name) = [] := by
        simpa [DbOp.apply] using congrArg Prod.fst hx
      exact absurd (List.mem_filter.mpr ⟨hrow, by simpa using hrname⟩)
        (hempty ▸ List.not_mem_nil)
  | some (stats :: rest) =>
      simp only [wp_pure, wp_bind]
      refine (wp_lift _ _).mpr ?_
      cases hn : SqliteDatabase.newAverage (SqliteDatabase.toUserStatistics stats.1) data with
      | error e => exact newAverage_error hn ▸ hE
      | ok average =>
          rw [ensures_ok]
          refine wp_db fun c' r' db' hc' hx' => ?_
          have hdb' : db'.accounts = db.accounts :=
            DbOp.accounts_of_exec (E := E) (by exact trivial) hx'
          cases r' with
          | none =>
              refine h _ _ db' (by simp [Op.Quiet]) (hdb'.trans hdb) fun hd _ => ?_
              rw [DbOp.exec_succeeds hd hc'] at hx'
              cases hx'
          | some u => exact h _ _ db' (by simp [Op.Quiet]) (hdb'.trans hdb) fun _ _ => rfl

/-! ## Submitting everybody who is left -/

/-- The players of a copy of the results whose entry is not yet marked. -/
def unsubmitted (results : List (LoggedUser × GameData)) (p : LoggedUser) : List GameData :=
  (results.filter fun e => decide (e.1 = p) && !e.2.isScoreSubmittedToDB).map Prod.snd

/-- What the submitting loop does to the game `gm`: it marks and submits the unmarked entries
of its copy. -/
structure Submitted (g : String) (results : List (LoggedUser × GameData)) (s : Managers)
    (gm : Game) (t : List (Event operations)) (s' : Managers) : Prop where
  state : ∃ players db, s' = (s.setGame g (gm.setPlayers players)).setDatabase db ∧
    db.accounts = s.database.accounts ∧
    Flagged gm.players players (fun _ => false) fun p => !(unsubmitted results p).isEmpty
  submissions : ∀ p, submissionsOf g p t = unsubmitted results p
  readings : readingsOf t = []

theorem unsubmitted_cons (p : LoggedUser) (data : GameData)
    (rest : List (LoggedUser × GameData)) (q : LoggedUser) :
    unsubmitted ((p, data) :: rest) q =
      (if p = q ∧ data.isScoreSubmittedToDB = false then [data] else []) ++
        unsubmitted rest q := by
  unfold unsubmitted
  by_cases hp : p = q <;> cases hd : data.isScoreSubmittedToDB <;> simp [hp, hd]

theorem wp_submitResults {g : String} {results : List (LoggedUser × GameData)} {gm : Game}
    {Q : List (Event operations) → Unit → Managers → Prop} (hg : s.game? g = some gm)
    (hself : s.setGame g gm = s) (hE : E .undefinedArithmetic)
    (hmem : ∀ e ∈ results, gm.players[e.1]? ≠ none)
    (h : ∀ t s', Submitted g results s gm t s' → Q t () s') :
    wp (machine d) E (GameManager.submitResults g results) Q s := by
  induction results generalizing s gm Q with
  | nil =>
      refine h [] s ⟨⟨gm.players, s.database, hself.symm, rfl, ?_⟩, fun p => rfl, rfl⟩
      exact Flagged.refl gm.players
  | cons e rest ih =>
      obtain ⟨p, data⟩ := e
      cases hdata : data.isScoreSubmittedToDB with
      | true =>
          simp only [GameManager.submitResults, hdata, if_true]
          refine ih hg hself (fun e he => hmem e (List.mem_cons_of_mem _ he)) fun t s' hs => ?_
          have hrest : ∀ q, unsubmitted ((p, data) :: rest) q = unsubmitted rest q := by
            intro q
            simp [unsubmitted_cons, hdata]
          obtain ⟨players, db, hs', hdb, hflag⟩ := hs.state
          exact h t s' ⟨⟨players, db, hs', hdb, by simpa only [hrest] using hflag⟩,
            fun q => by rw [hrest, hs.submissions], hs.readings⟩
      | false =>
          simp only [GameManager.submitResults, hdata, Bool.false_eq_true, if_false, wp_bind]
          have huuid : gm.uuid = g := game?_uuid hg
          refine wp_markUserResultsAsSubmittedToDB hg
            (fun hnone => absurd hnone (hmem _ List.mem_cons_self)) fun players hflag => ?_
          have hset : (gm.setPlayers players).uuid = g := huuid
          refine wp_submitting (wp_submitGameStatistics hE fun tq r db hq hdb _ => ?_)
          refine ih (s := (s.setGame g (gm.setPlayers players)).setDatabase db)
            (game?_setGame hg hset) ?_ ?_ fun t s' hs => ?_
          · rw [setGame_setDatabase, setGame_setGame _ _ _ hset]
          · intro e he hnone
            exact hmem e (List.mem_cons_of_mem _ he) (hflag.eq_none.mp hnone)
          · obtain ⟨players', db', hs', hdb', hflag'⟩ := hs.state
            refine h _ s' ⟨⟨players', db', ?_, hdb'.trans hdb, ?_⟩, fun q => ?_, ?_⟩
            · rw [hs', setGame_setDatabase, setGame_setGame _ _ _ hset]
              rfl
            · refine (hflag.trans hflag').congr fun q _ _ => ?_
              by_cases hqp : q = p
              · simp [unsubmitted_cons, hqp, hdata]
              · simp [unsubmitted_cons, hqp, Ne.symm hqp]
            · simp [submissionsOf_quiet hq, hs.submissions, unsubmitted_cons, hdata]
            · simp [readingsOf_quiet hq, hs.readings]

/-! ## One removal -/

/-- The entry of a player whose result has not been submitted yet. -/
def GameData.due (data : GameData) : List GameData :=
  if data.isScoreSubmittedToDB then [] else [data]

theorem filter_key_eq {α β : Type} [DecidableEq α] {l : List (α × β)}
    (hl : l.Pairwise fun a b => a.1 ≠ b.1) {p : α} {v : β} (h : (p, v) ∈ l) :
    l.filter (fun e => decide (e.1 = p)) = [(p, v)] := by
  induction l with
  | nil => cases h
  | cons e rest ih =>
      obtain ⟨hne, hrest⟩ := List.pairwise_cons.mp hl
      rcases List.mem_cons.mp h with rfl | h
      · have hempty : rest.filter (fun e => decide (e.1 = p)) = [] := by
          refine List.filter_eq_nil_iff.mpr fun e he => ?_
          simpa using (hne e he).symm
        simp [hempty]
      · have hep : e.1 ≠ p := hne _ h
        simp [hep, ih hrest h]

theorem nodup_players (m : Std.TreeMap LoggedUser GameData) :
    (m.toList.map Prod.fst).Nodup := by
  refine List.pairwise_map.mpr (Std.TreeMap.distinct_keys_toList.imp fun {a b} h he => h ?_)
  rw [he]
  exact Std.ReflCmp.compare_self

theorem unsubmitted_toList (m : Std.TreeMap LoggedUser GameData) (p : LoggedUser) :
    unsubmitted m.toList p = (m[p]?.map GameData.due).getD [] := by
  have hkeys : m.toList.Pairwise fun a b => a.1 ≠ b.1 :=
    List.pairwise_map.mp (nodup_players m)
  have hsplit : unsubmitted m.toList p =
      ((m.toList.filter fun e => decide (e.1 = p)).filter
        fun e => !e.2.isScoreSubmittedToDB).map Prod.snd := by
    rw [List.filter_filter, unsubmitted]
    simp only [Bool.and_comm]
  rw [hsplit]
  cases hp : m[p]? with
  | none =>
      have hempty : m.toList.filter (fun e => decide (e.1 = p)) = [] := by
        refine List.filter_eq_nil_iff.mpr fun e he hep => ?_
        have hget := Std.TreeMap.mem_toList_iff_getElem?_eq_some.mp (show (e.1, e.2) ∈ _ from he)
        rw [of_decide_eq_true hep, hp] at hget
        cases hget
      rw [hempty]
      rfl
  | some data =>
      rw [filter_key_eq hkeys (Std.TreeMap.mem_toList_iff_getElem?_eq_some.mpr hp)]
      cases hd : data.isScoreSubmittedToDB <;> simp [GameData.due, hd]

/-- A player who leaves before the end is punished. -/
theorem wp_punishLeaver {g : String} {gm : Game} {user : LoggedUser}
    {Q : List (Event operations) → Unit → Managers → Prop} (hg : s.game? g = some gm)
    (hplayer : gm.players[user]? = none → gm.isFinished s.clock = false → E .playerNotFound)
    (h : ∀ t k players s', s.clock ≤ k →
      Flagged gm.players players (fun p => decide (p = user) && !gm.isFinished k)
        (fun _ => false) →
      s'.game? g = some (gm.setPlayers players) →
      (∀ gm', s'.setGame g gm' = (s.setClock k).setGame g gm') →
      (∀ p, submissionsOf g p t = []) → readingsOf t = [gm.isFinished k] → Q t () s') :
    wp (machine d) E (GameManager.punishLeaver g user) Q s := by
  have huuid : gm.uuid = g := game?_uuid hg
  unfold GameManager.punishLeaver
  simp only [wp_bind]
  refine wp_isFinished hg fun k hk => ?_
  cases hf : gm.isFinished k with
  | true =>
      refine h _ k gm.players (s.setClock k) hk ?_ hg (fun _ => rfl) (fun _ => by simp) ?_
      · simpa [hf] using Flagged.refl gm.players
      · simp [hf]
  | false =>
      have hrunning : gm.isFinished s.clock = false := Game.isFinished_false hk hf
      refine wp_punishPlayer (s := s.setClock k) hg (fun hnone => hplayer hnone hrunning)
        fun players hflag => ?_
      have hset : (gm.setPlayers players).uuid = g := huuid
      refine h _ k players _ hk ?_ (game?_setGame hg hset) (fun gm' => setGame_setGame _ _ _ hset)
        (fun _ => by simp) ?_
      · simpa [hf] using hflag
      · simp [hf]

/-- A player who leaves before the end is booked at once. -/
theorem wp_submitLeaver {g : String} {gm : Game} {user : LoggedUser}
    {Q : List (Event operations) → Option Error → Managers → Prop} (hg : s.game? g = some gm)
    (hself : s.setGame g gm = s)
    (hplayer : gm.players[user]? = none → gm.isFinished s.clock = false → E .playerNotFound)
    (hE : E .undefinedArithmetic)
    (h : ∀ t r k players db, s.clock ≤ k →
      Flagged gm.players players (fun _ => false)
        (fun p => decide (p = user) && !gm.isFinished k) →
      (∀ p, submissionsOf g p t = if p = user ∧ gm.isFinished k = false then
        (players[p]?.map fun data => [data]).getD [] else []) →
      readingsOf t = [gm.isFinished k] → db.accounts = s.database.accounts →
      (d = true → user.username ∈ s.database.accounts.map Prod.snd → r = none) →
      Q t r (((s.setGame g (gm.setPlayers players)).setClock k).setDatabase db)) :
    wp (machine d) E (GameManager.submitLeaver g user) Q s := by
  have huuid : gm.uuid = g := game?_uuid hg
  unfold GameManager.submitLeaver
  simp only [wp_bind]
  refine wp_isFinished hg fun k hk => ?_
  cases hf : gm.isFinished k with
  | true =>
      have hkept := h [event (.game (.isFinished g)) true] none k gm.players s.database hk
        (by simpa [hf] using Flagged.refl gm.players) (fun p => by simp [hf]) (by simp [hf]) rfl
        fun _ _ => rfl
      rw [Game.setPlayers_self, hself] at hkept
      exact hkept
  | false =>
      simp only [Bool.not_false, if_true, wp_bind]
      have hmissing : gm.players[user]? = none → E .playerNotFound := fun hnone =>
        hplayer hnone (Game.isFinished_false hk hf)
      refine wp_markUserResultsAsSubmittedToDB (s := s.setClock k) hg hmissing
        fun players hflag => ?_
      have hset : (gm.setPlayers players).uuid = g := huuid
      refine wp_getPlayersResults (s := (s.setClock k).setGame g _) (game?_setGame hg hset) ?_
      cases hp : players[user]? with
      | none =>
          simp only [Game.setPlayers_players, hp]
          exact (wp_throw _ _).mpr (hmissing (hflag.eq_none.mp hp))
      | some data =>
          simp only [Game.setPlayers_players, hp, wp_bind]
          refine wp_submitting (wp_submitGameStatistics hE fun t r db hq hdb hr => ?_)
          refine h _ r k players db hk (by simpa [hf] using hflag) (fun p => ?_) ?_ hdb hr
          · by_cases hpu : p = user
            · simp [submissionsOf_quiet hq, hpu, hp, hf]
            · simp [submissionsOf_quiet hq, hpu, Ne.symm hpu]
          · simp [readingsOf_quiet hq, hf]

/-- After the end everybody who is left is booked. -/
theorem wp_submitIfFinished {g : String} {gm : Game}
    {Q : List (Event operations) → Unit → Managers → Prop} (hg : s.game? g = some gm)
    (hself : s.setGame g gm = s) (hE : E .undefinedArithmetic)
    (h : ∀ t k players db, s.clock ≤ k →
      Flagged gm.players players (fun _ => false) (fun _ => gm.isFinished k) →
      (∀ p, submissionsOf g p t = if gm.isFinished k then
        (gm.players[p]?.map GameData.due).getD [] else []) →
      readingsOf t = [gm.isFinished k] → db.accounts = s.database.accounts →
      Q t () (((s.setGame g (gm.setPlayers players)).setClock k).setDatabase db)) :
    wp (machine d) E (GameManager.submitIfFinished g) Q s := by
  unfold GameManager.submitIfFinished
  simp only [wp_bind]
  refine wp_isFinished hg fun k hk => ?_
  cases hf : gm.isFinished k with
  | false =>
      have hkept := h [event (.game (.isFinished g)) false] k gm.players s.database hk
        (by simpa [hf] using Flagged.refl gm.players) (fun p => by simp [hf]) (by simp [hf]) rfl
      rw [Game.setPlayers_self, hself] at hkept
      exact hkept
  | true =>
      simp only [if_true, GameManager.submitAllGameStatsToDB, wp_bind]
      have hself' : (s.setClock k).setGame g gm = s.setClock k := by
        rw [setGame_setClock, hself]
      refine wp_getGameById (s := s.setClock k) hg ?_
      refine wp_getPlayersResults (s := s.setClock k) hg ?_
      refine wp_submitResults hg hself' hE (fun e he hnone => ?_) fun t s' hs => ?_
      · have hget := Std.TreeMap.mem_toList_iff_getElem?_eq_some.mp (show (e.1, e.2) ∈ _ from he)
        rw [hnone] at hget
        cases hget
      · obtain ⟨players, db, rfl, hdb, hflag⟩ := hs.state
        refine h _ k players db hk (hflag.congr fun p data hp => ?_) (fun p => ?_) ?_ hdb
        · rw [unsubmitted_toList, hp]
          cases hd : data.isScoreSubmittedToDB <;> simp [GameData.due, GameData.flag, hd, hf]
        · simp [hs.submissions, unsubmitted_toList, hf]
        · simp [hs.readings, hf]

theorem wp_eraseIfEmpty {g : String} {gm : Game}
    {Q : List (Event operations) → Unit → Managers → Prop} (hg : s.game? g = some gm)
    (h : ∀ t, (∀ p, submissionsOf g p t = []) → readingsOf t = [] →
      Q t () (if gm.onlinePlayers.isEmpty then
        { s with games := s.games.eraseP (·.uuid = g) } else s)) :
    wp (machine d) E (GameManager.eraseIfEmpty g) Q s := by
  unfold GameManager.eraseIfEmpty
  simp only [wp_bind]
  refine wp_getOnlinePlayers hg ?_
  have hdone := h
    ([event (.game (.getOnlinePlayers g)) gm.onlinePlayers] ++
      if gm.onlinePlayers.isEmpty then [event (.game (.eraseGame g)) ()] else [])
  cases he : gm.onlinePlayers.isEmpty with
  | true =>
      simp only [if_true]
      refine wp_eraseGame hg ?_
      simpa [he] using hdone
  | false => simpa [he] using hdone

/-- What one removal submits of an entry, as a function of the three readings. -/
def GameData.booked (data : GameData) (leaver f₁ f₂ f₃ : Bool) : List GameData :=
  if leaver && !f₂ then [data.flag (!f₁) true]
  else if f₃ then (data.flag (leaver && !f₁) false).due
  else []

/-- The state after a removal: the game has lost the player, and is gone with the last one. -/
def Managers.depart (s : Managers) (g : String) (user : LoggedUser) (gm : Game) (clock : ℕ)
    (players : Std.TreeMap LoggedUser GameData) (database : Database) : Managers :=
  let gm' := (gm.removePlayer user).setPlayers players
  let s' := ((s.setGame g gm').setClock clock).setDatabase database
  if gm'.onlinePlayers.isEmpty then { s' with games := s'.games.eraseP (·.uuid = g) } else s'

/-- What one call of `removePlayerFromGame` does, with its readings at `k₁`, `k₂` and `k₃`. -/
structure Departure (d : Bool) (g : String) (user : LoggedUser) (s : Managers) (gm : Game)
    (k₁ k₂ k₃ : ℕ) (players : Std.TreeMap LoggedUser GameData) (database : Database)
    (t : List (Event operations)) (result : Option Error) : Prop where
  clock₁ : s.clock ≤ k₁
  clock₂ : k₁ ≤ k₂
  clock₃ : k₂ ≤ k₃
  readings : readingsOf t = [gm.isFinished k₁, gm.isFinished k₂, gm.isFinished k₃]
  flags : Flagged gm.players players (fun p => decide (p = user) && !gm.isFinished k₁)
    fun p => (decide (p = user) && !gm.isFinished k₂) || gm.isFinished k₃
  submissions : ∀ p, submissionsOf g p t = (gm.players[p]?.map fun data =>
    data.booked (decide (p = user)) (gm.isFinished k₁) (gm.isFinished k₂)
      (gm.isFinished k₃)).getD []
  accounts : database.accounts = s.database.accounts
  result_none : d = true → user.username ∈ s.database.accounts.map Prod.snd → result = none

theorem wp_removePlayerFromGame {g : String} {gm : Game} {user : LoggedUser}
    {Q : List (Event operations) → Option Error → Managers → Prop} (hg : s.game? g = some gm)
    (hplayer : gm.players[user]? = none → gm.isFinished s.clock = false → E .playerNotFound)
    (hE : E .undefinedArithmetic)
    (h : ∀ k₁ k₂ k₃ players db t r, Departure d g user s gm k₁ k₂ k₃ players db t r →
      Q t r (s.depart g user gm k₃ players db)) :
    wp (machine d) E (GameManager.removePlayerFromGame g user) Q s := by
  have huuid : gm.uuid = g := game?_uuid hg
  have hG : ∀ m, ((gm.removePlayer user).setPlayers m).uuid = g := fun _ => huuid
  unfold GameManager.removePlayerFromGame
  simp only [wp_bind]
  refine wp_punishLeaver hg hplayer fun t₁ k₁ m₁ s₁ hk₁ hflag₁ hg₁ hset₁ hsub₁ hread₁ => ?_
  refine wp_removePlayer hg₁ ?_
  rw [hset₁, Game.setPlayers_removePlayer]
  refine wp_submitLeaver (game?_setGame (s := s.setClock k₁) hg (hG m₁))
    (setGame_setGame _ _ _ (hG m₁))
    (fun hnone hrunning =>
      hplayer (hflag₁.eq_none.mp hnone) (Game.isFinished_false hk₁ hrunning)) hE
    fun t₂ r k₂ m₂ db₂ hk₂ hflag₂ hsub₂ hread₂ hdb₂ hr => ?_
  rw [setGame_setGame _ _ _ (hG m₁), Game.setPlayers_setPlayers]
  refine wp_submitIfFinished (game?_setGame (s := (s.setClock k₂).setDatabase db₂) hg (hG m₂))
    (setGame_setGame ((s.setClock k₂).setDatabase db₂) _ _ (hG m₂)) hE
    fun t₃ k₃ m₃ db₃ hk₃ hflag₃ hsub₃ hread₃ hdb₃ => ?_
  rw [setGame_setDatabase, setGame_setClock, setGame_setGame _ _ _ (hG m₂),
    Game.setPlayers_setPlayers]
  refine wp_eraseIfEmpty (game?_setGame (s := (s.setClock k₃).setDatabase db₃) hg (hG m₃))
    fun t₄ hsub₄ hread₄ => ?_
  refine h k₁ k₂ k₃ m₃ db₃ _ r
    ⟨hk₁, hk₂, hk₃, ?_, ?_, fun p => ?_, hdb₃.trans hdb₂, hr⟩
  · simp [hread₁, hread₂, hread₃, hread₄]
  · refine ((hflag₁.trans hflag₂).trans hflag₃).congr fun p data _ => ?_
    simp
  · have hm₂ : m₂[p]? = _ := (hflag₁.trans hflag₂) p
    have hsub : submissionsOf g p [event (.game (.removePlayer g user)) ()] = [] := by simp
    simp only [submissionsOf_append, hsub₁, hsub₂, hsub₃, hsub₄, hsub, hm₂,
      Game.isFinished_setPlayers, Game.isFinished_removePlayer, Game.setPlayers_players]
    cases gm.players[p]? with
    | none => simp
    | some data =>
        cases hp : decide (p = user) <;> cases h₂ : gm.isFinished k₂ <;>
          cases h₃ : gm.isFinished k₃ <;>
          simp_all [GameData.booked, GameData.flag, GameData.due]

/-! ## The list of games after a departure -/

theorem map_uuid_replace (games : List Game) (g : String) {gm : Game} (hg : gm.uuid = g) :
    (games.map fun g' => if g'.uuid = g then gm else g').map Game.uuid =
      games.map Game.uuid := by
  rw [List.map_map]
  refine List.map_congr_left fun g' _ => ?_
  by_cases h : g'.uuid = g <;> simp [h, hg]

theorem filter_replace (games : List Game) (g : String) {gm : Game} (hg : gm.uuid = g) :
    (games.map fun g' => if g'.uuid = g then gm else g').filter (·.uuid ≠ g) =
      games.filter (·.uuid ≠ g) := by
  induction games with
  | nil => rfl
  | cons g' rest ih => by_cases h : g'.uuid = g <;> simp_all

theorem filter_eraseP (games : List Game) (g : String) :
    (games.eraseP (·.uuid = g)).filter (·.uuid ≠ g) = games.filter (·.uuid ≠ g) := by
  induction games with
  | nil => rfl
  | cons g' rest ih => by_cases h : g'.uuid = g <;> simp_all

theorem eraseP_uuid_ne {games : List Game} {g : String} (h : (games.map Game.uuid).Nodup) :
    ∀ gm ∈ games.eraseP (·.uuid = g), gm.uuid ≠ g := by
  induction games with
  | nil => simp
  | cons g' rest ih =>
      rw [List.map_cons, List.nodup_cons] at h
      by_cases hg : g'.uuid = g
      · intro gm hgm heq
        rw [List.eraseP_cons_of_pos (by simpa using hg)] at hgm
        exact h.1 (hg ▸ heq ▸ List.mem_map_of_mem hgm)
      · intro gm hgm
        rw [List.eraseP_cons_of_neg (by simpa using hg)] at hgm
        rcases List.mem_cons.mp hgm with rfl | hgm
        · exact hg
        · exact ih h.2 gm hgm

section Depart

variable {s : Managers} {g : String} {user : LoggedUser} {gm : Game} {clock : ℕ}
  {players : Std.TreeMap LoggedUser GameData} {database : Database}

theorem depart_clock : (s.depart g user gm clock players database).clock = clock := by
  unfold Managers.depart
  simp only
  split <;> rfl

theorem depart_others (hg : gm.uuid = g) :
    (s.depart g user gm clock players database).games.filter (·.uuid ≠ g) =
      s.games.filter (·.uuid ≠ g) := by
  have hset : ((gm.removePlayer user).setPlayers players).uuid = g := hg
  unfold Managers.depart
  simp only
  split
  · exact (filter_eraseP _ g).trans (filter_replace s.games g hset)
  · exact filter_replace s.games g hset

theorem depart_nodup (hg : gm.uuid = g) (h : (s.games.map Game.uuid).Nodup) :
    ((s.depart g user gm clock players database).games.map Game.uuid).Nodup := by
  have hset : ((gm.removePlayer user).setPlayers players).uuid = g := hg
  have hmap := map_uuid_replace s.games g hset
  unfold Managers.depart
  simp only
  split
  · exact List.Nodup.sublist (List.eraseP_sublist.map _) (hmap ▸ h)
  · exact hmap ▸ h

/-- While somebody is left, the game is there with the players it still has. -/
theorem depart_present (hgm : s.game? g = some gm)
    (hleft : (gm.removePlayer user).onlinePlayers ≠ []) :
    (s.depart g user gm clock players database).game? g =
      some ((gm.removePlayer user).setPlayers players) := by
  have huuid : gm.uuid = g := game?_uuid hgm
  have hset : ((gm.removePlayer user).setPlayers players).uuid = g := huuid
  have hempty : ((gm.removePlayer user).setPlayers players).onlinePlayers.isEmpty = false :=
    List.isEmpty_eq_false_iff.mpr hleft
  unfold Managers.depart
  simp only [hempty, Bool.false_eq_true, if_false]
  exact game?_setGame (s := (s.setClock clock).setDatabase database) hgm hset

/-- The last player takes the game along. -/
theorem depart_gone (hg : gm.uuid = g) (h : (s.games.map Game.uuid).Nodup)
    (hleft : (gm.removePlayer user).onlinePlayers = []) :
    ∀ gm' ∈ (s.depart g user gm clock players database).games, gm'.uuid ≠ g := by
  have hset : ((gm.removePlayer user).setPlayers players).uuid = g := hg
  have hempty : ((gm.removePlayer user).setPlayers players).onlinePlayers.isEmpty = true :=
    List.isEmpty_iff.mpr hleft
  unfold Managers.depart
  simp only [hempty, if_true]
  exact eraseP_uuid_ne (map_uuid_replace s.games g hset ▸ h)

end Depart

/-! ## The calls of a departure -/

/-- The operations that a departure from a game uses. -/
def Op.Leaving (g : String) : Op → Prop
  | .database (.insertUser _) => False
  | .database (.removeUser _) => False
  | .database (.updateUser ..) => False
  | .database _ => True
  | .game (.pushGame ..) => False
  | .game (.submitting g' _ _) => g' = g
  | .game _ => True
  | .external (.sendEmailVerification ..) => False
  | .external _ => True
  | _ => False

theorem leaving_of_reads {α : Type} {g : String} {p : Action α}
    (h : p.Only (Op.Reads fun _ => True)) : p.Only (Op.Leaving g) := by
  refine h.mono fun o ho => ?_
  cases o with
  | login o => exact ho.elim
  | room o => exact ho.elim
  | game o => exact ho.elim
  | database o =>
      cases o with
      | insertUser | removeUser | updateUser => exact ho.elim
      | _ => trivial
  | external o =>
      cases o with
      | sendEmailVerification => exact ho.elim
      | _ => trivial

/-- The operations of `submitGameStatistics`. -/
def Op.Books : Op → Prop
  | .database (.selectStatistics _) => True
  | .database (.updateStatistics _) => True
  | .external (.throw _) => True
  | _ => False

/-- The operations of a departure that leave everybody and the game itself where they are. -/
def Op.Works (g : String) (o : Op) : Prop :=
  o.Books ∨
    match o with
    | .game (.isFinished id) => id = g
    | .game (.punishPlayer id _) => id = g
    | .game (.markUserResultsAsSubmittedToDB id _) => id = g
    | .game (.getPlayersResults id) => id = g
    | .game (.getGameById id) => id = g
    | .game (.submitting id _ _) => id = g
    | _ => False

theorem Op.Works.leaving {g : String} {o : Op} (h : o.Works g) : o.Leaving g := by
  rcases h with h | h
  · cases o with
    | login | room | game => exact h.elim
    | database o => cases o <;> trivial
    | external o => cases o <;> trivial
  · cases o with
    | login | room | database | external => exact h.elim
    | game o => cases o <;> first | exact h | trivial

theorem books_submitGameStatistics (data : GameData) (name : String) :
    (SqliteDatabase.submitGameStatistics data name).Only Op.Books := by
  refine Only.bind ⟨trivial, fun rows => ?_⟩ fun stats => ?_
  · rcases rows with _ | _ | ⟨row, rest⟩ <;> trivial
  · cases stats with
    | error e => trivial
    | ok stats =>
        refine Only.bind ?_ fun average => ⟨trivial, fun updated => ?_⟩
        · cases SqliteDatabase.newAverage stats.2 data with
          | error e => exact ⟨trivial, fun r => nomatch r⟩
          | ok average => trivial
        · cases updated <;> trivial

theorem RoomManager.removePlayerFromRoom_only {φ : Op → Prop} {uuid : String}
    {user : LoggedUser}
    (hremove : φ (.room (.removeUserAt uuid user))) (hget : φ (.room (.getAllUsersAt uuid)))
    (herase : φ (.room (.eraseRoom uuid))) :
    (RoomManager.removePlayerFromRoom uuid user).Only φ := by
  refine ⟨hremove, fun _ => ⟨hget, fun users => ?_⟩⟩
  cases (users : List LoggedUser) with
  | nil => exact ⟨herase, fun _ => trivial⟩
  | cons => trivial

namespace GameManager

variable {g : String}

theorem works_game {o : GameOp} (ho : (Op.game o).Works g) :
    (Action.game o).Only (Op.Works g) :=
  Program.only_call (S := operations) ho

theorem leaving_game {o : GameOp} (ho : (Op.game o).Leaving g) :
    (Action.game o).Only (Op.Leaving g) :=
  Program.only_call (S := operations) ho

theorem works_submitResults (results : List (LoggedUser × GameData)) :
    (submitResults g results).Only (Op.Works g) := by
  induction results with
  | nil => trivial
  | cons entry rest ih =>
      unfold submitResults
      split_ifs
      · exact ih
      · exact Only.bind (works_game (.inr rfl)) fun _ => Only.bind (works_game (.inr rfl)) fun _ =>
          Only.bind ((books_submitGameStatistics _ _).mono fun _ => .inl) fun _ => ih

theorem works_punishLeaver (user : LoggedUser) : (punishLeaver g user).Only (Op.Works g) := by
  refine Only.bind (works_game (.inr rfl)) fun finished => ?_
  split_ifs
  · exact works_game (.inr rfl)
  · trivial

theorem works_submitLeaver (user : LoggedUser) : (submitLeaver g user).Only (Op.Works g) := by
  refine Only.bind (works_game (.inr rfl)) fun finished => ?_
  split_ifs
  · refine Only.bind (works_game (.inr rfl)) fun _ =>
      Only.bind (works_game (.inr rfl)) fun results => ?_
    split
    · exact ⟨.inl trivial, fun r => nomatch r⟩
    · exact Only.bind (works_game (.inr rfl)) fun _ =>
        (books_submitGameStatistics _ _).mono fun _ => .inl
  · trivial

theorem works_submitIfFinished : (submitIfFinished g).Only (Op.Works g) := by
  refine Only.bind (works_game (.inr rfl)) fun finished => ?_
  split_ifs
  · unfold submitAllGameStatsToDB getGameById
    simp only [bind_assoc, pure_bind]
    exact Only.bind (works_game (.inr rfl)) fun _ => Only.bind (works_game (.inr rfl)) fun _ =>
      works_submitResults _
  · trivial

theorem leaving_eraseIfEmpty : (eraseIfEmpty g).Only (Op.Leaving g) := by
  refine Only.bind (leaving_game trivial) fun online => ?_
  split_ifs
  · exact leaving_game trivial
  · trivial

theorem leaving_removePlayerFromGame (user : LoggedUser) :
    (removePlayerFromGame g user).Only (Op.Leaving g) :=
  Only.bind ((works_punishLeaver user).mono fun _ ho => ho.leaving) fun _ =>
    Only.bind (leaving_game trivial) fun _ =>
    Only.bind ((works_submitLeaver user).mono fun _ ho => ho.leaving) fun _ =>
    Only.bind (works_submitIfFinished.mono fun _ ho => ho.leaving) fun _ =>
    Only.bind leaving_eraseIfEmpty fun _ => trivial

end GameManager

end TriviaServer
