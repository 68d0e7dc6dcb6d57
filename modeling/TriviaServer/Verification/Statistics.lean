import Mathlib.Data.Fintype.Basic
import TriviaServer.Interaction.Discipline
import TriviaServer.Verification.Accounts
import TriviaServer.Verification.Replays

/-! # Concurrent updates of a user's statistics

`submitGameStatistics` reads the statistics in one section and writes them in another. The
counters add up if nobody reads between another call's read and its write. -/

namespace TriviaServer

open Interaction

/-! ## The row that is read and written -/

/-- The user's row and id, as `getUserStatistics` finds them. -/
def Database.readRow (db : Database) (user : String) : Option (Statistics × ℕ) :=
  ((db.joined.filter (·.1.username = user)).map fun r => (r.2, r.1.id)).head?

theorem Database.joined_updateStatistics (db : Database) (row : Statistics) :
    (db.updateStatistics row).joined =
      db.joined.map fun r => (r.1, if r.2.userId = row.userId then row else r.2) := by
  unfold Database.joined Database.updateStatistics
  rw [List.map_flatMap]
  refine List.flatMap_congr fun u _ => ?_
  rw [List.filter_map, List.map_map, List.map_map]
  have hid : ((fun st : Statistics => decide (st.userId = u.id)) ∘ fun st =>
      if st.userId = row.userId then row else st) = fun st => decide (st.userId = u.id) := by
    funext st
    by_cases h : st.userId = row.userId <;> simp [h]
  rw [hid]
  rfl

/-- The row that is written is the one that is read next. -/
theorem Database.readRow_updateStatistics {db : Database} {user : String} {old row : Statistics}
    (h : db.readRow user = some (old, row.userId)) :
    (db.updateStatistics row).readRow user = some (row, row.userId) := by
  unfold Database.readRow at h ⊢
  rw [List.head?_map, Option.map_eq_some_iff] at h
  obtain ⟨r, hr, heq⟩ := h
  have hmem : r ∈ db.joined := List.mem_of_mem_filter (List.mem_of_head? hr)
  obtain ⟨u, -, st, hst, rfl⟩ : ∃ u ∈ db.users, ∃ st, st.userId = u.id ∧ (u, st) = r := by
    obtain ⟨u, hu, hr⟩ := List.mem_flatMap.mp hmem
    obtain ⟨st, hst, rfl⟩ := List.mem_map.mp hr
    exact ⟨u, hu, st, by simpa using (List.mem_filter.mp hst).2, rfl⟩
  obtain ⟨rfl, hid⟩ := Prod.mk.inj heq
  rw [Database.joined_updateStatistics, List.filter_map, List.map_map, List.head?_map]
  have hname : ((fun r : User × Statistics => decide (r.1.username = user)) ∘
      fun r : User × Statistics => (r.1, if r.2.userId = row.userId then row else r.2)) =
      fun r => decide (r.1.username = user) := rfl
  have hid' : u.id = row.userId := hid
  rw [hname, hr]
  simp [hst, hid']

theorem DbOp.apply_selectStatistics (db : Database) (user : String) (c : Choice) :
    (DbOp.selectStatistics user).apply c db = (some (db.readRow user).toList, db) := by
  rw [Database.readRow, ← List.take_one]
  rfl

/-! ## One call of `submitGameStatistics` -/

/-- Where a call is: at its start, behind its read with the row it found, behind its write. -/
inductive BookingStanding where
  | fresh
  | called (data : GameData)
  | read (data : GameData) (stats : Statistics) (id : ℕ)
  | written
  | done

/-- The counters of a row that books a game on top of another row. -/
structure BooksOn (data : GameData) (stats : Statistics) (id : ℕ) (row : Statistics) : Prop where
  userId : row.userId = id
  totalGames : row.totalGames = stats.totalGames + 1
  correctAnswers : row.correctAnswers = stats.correctAnswers + data.getNumOfCorrectAnswers
  wrongAnswers : row.wrongAnswers = stats.wrongAnswers + data.getNumOfWrongAnswers

namespace BookingStanding

def observe (st : BookingStanding) (o : Observation operations Unit GameData (Option Error)) :
    BookingStanding :=
  match st, o with
  | fresh, .received _ data => called data
  | called data, .called ⟨.database (.selectStatistics _), some ((stats, id) :: _)⟩ =>
      read data stats id
  | read .., .called ⟨.database (.updateStatistics _), _⟩ => written
  | written, .finished .. => done
  | st, _ => st

/-- The call has its game still to book. -/
def Waits : BookingStanding → GameData → Prop
  | called data, data' => data' = data
  | read data _ _, data' => data' = data
  | _, _ => False

end BookingStanding

/-- A call reads the user's row, which is there, and writes one that books its game on top. -/
def bookingDiscipline (user : String) :
    Discipline operations Unit GameData (Option Error) BookingStanding where
  initial := .fresh
  observe := BookingStanding.observe
  allowed st o :=
    match o with
    | .database (.selectStatistics name) => name = user ∧ ∃ data, st = .called data
    | .database (.updateStatistics row) => ∃ data stats id, st = .read data stats id ∧
        BooksOn data stats id row
    | .external (.throw _) => True
    | _ => False
  assumed _ e :=
    match e with
    | ⟨.database (.selectStatistics _), rows⟩ => ∃ stats id, rows = some [(stats, id)]
    | ⟨.database (.updateStatistics _), updated⟩ => updated = some ()
    | _ => True
  mayFinish st _ _ _ := st = .written

/-- Calls of `submitGameStatistics` for one user, each with a player's data. -/
def bookings (user : String) : Service operations Unit GameData (Option Error) Unit :=
  Service.pool fun data => SqliteDatabase.submitGameStatistics data user

theorem bookings_obey (user : String) :
    (bookingDiscipline user).ObeyedBy (bookings user) (fun _ st => st = .fresh)
      fun st => st = .done where
  start := rfl
  serve := by
    rintro _ data _ - rfl
    show wp _ _ (SqliteDatabase.submitGameStatistics data user) _ (BookingStanding.called data)
    unfold SqliteDatabase.submitGameStatistics SqliteDatabase.getUserStatistics
    simp only [wp_bind]
    refine Discipline.wp_call (D := bookingDiscipline user) ⟨rfl, data, rfl⟩ ?_
    rintro _ ⟨stats, id, rfl⟩
    simp only [wp_pure, wp_bind]
    cases hnew : SqliteDatabase.newAverage (SqliteDatabase.toUserStatistics stats) data with
    | error e =>
        simp only [Action.lift, Action.throw, wp_bind]
        exact Discipline.wp_call (D := bookingDiscipline user) trivial fun impossible _ =>
          impossible.elim
    | ok average =>
        simp only [Action.lift, wp_pure]
        refine Discipline.wp_call (D := bookingDiscipline user)
          ⟨data, stats, id, rfl, ⟨rfl, rfl, rfl, rfl⟩⟩ ?_
        rintro _ rfl
        exact ⟨rfl, fun _ => rfl⟩

/-! ## The ledger of a run -/

/-- The counters, which have 32 bits, hold what was there before and these games. -/
structure AddsUp (row₀ row : Statistics) (games : List GameData) : Prop where
  totalGames : row.totalGames.toNat = (row₀.totalGames.toNat + games.length) % 2 ^ 32
  correctAnswers : row.correctAnswers.toNat = (row₀.correctAnswers.toNat +
    (games.map fun data => data.getNumOfCorrectAnswers.toNat).sum) % 2 ^ 32
  wrongAnswers : row.wrongAnswers.toNat = (row₀.wrongAnswers.toNat +
    (games.map fun data => data.getNumOfWrongAnswers.toNat).sum) % 2 ^ 32

theorem AddsUp.start (row : Statistics) : AddsUp row row [] where
  totalGames := (Nat.mod_eq_of_lt row.totalGames.toNat_lt).symm
  correctAnswers := (Nat.mod_eq_of_lt row.correctAnswers.toNat_lt).symm
  wrongAnswers := (Nat.mod_eq_of_lt row.wrongAnswers.toNat_lt).symm

theorem AddsUp.book {row₀ row row' : Statistics} {games : List GameData} {data : GameData}
    {id : ℕ} (h : AddsUp row₀ row games) (hbooks : BooksOn data row id row') :
    AddsUp row₀ row' (data :: games) where
  totalGames := by
    rw [hbooks.totalGames, UInt32.toNat_add, h.totalGames, List.length_cons]
    simp [Nat.add_assoc]
  correctAnswers := by
    rw [hbooks.correctAnswers, UInt32.toNat_add, h.correctAnswers, List.map_cons, List.sum_cons]
    omega
  wrongAnswers := by
    rw [hbooks.wrongAnswers, UInt32.toNat_add, h.wrongAnswers, List.map_cons, List.sum_cons]
    omega

theorem AddsUp.perm {row₀ row : Statistics} {games games' : List GameData}
    (h : AddsUp row₀ row games) (hperm : games.Perm games') : AddsUp row₀ row games' where
  totalGames := by rw [h.totalGames, hperm.length_eq]
  correctAnswers := by rw [h.correctAnswers, (hperm.map _).sum_eq]
  wrongAnswers := by rw [h.wrongAnswers, (hperm.map _).sum_eq]

/-- The call has read the row and not yet written one. -/
def BookingStanding.Between (st : BookingStanding) : Prop :=
  ∃ data stats id, st = .read data stats id

instance : DecidablePred BookingStanding.Between
  | .read data stats id => .isTrue ⟨data, stats, id, rfl⟩
  | .fresh | .called _ | .written | .done => .isFalse fun ⟨_, _, _, h⟩ => nomatch h

section Ledger

variable {ι : Type}

/-- The games received are booked or waiting, and one call at most is about to book a game, on
the row as it is now. -/
structure Ledger (user : String) (row₀ row : Statistics) (id : ℕ)
    (booked waiting received : List (ι × GameData)) (db : Database)
    (standing : ι → BookingStanding) : Prop where
  found : db.readRow user = some (row, id)
  current : ∀ c data stats id', standing c = .read data stats id' → stats = row ∧ id' = id
  one : ∀ c c', (standing c).Between → (standing c').Between → c = c'
  perm : received.Perm (booked ++ waiting)
  addsUp : AddsUp row₀ row (booked.map Prod.snd)
  nodup : (waiting.map Prod.fst).Nodup
  waits : ∀ c data, (c, data) ∈ waiting ↔ (standing c).Waits data

namespace Ledger

variable {user : String} {row₀ row row' : Statistics} {id : ℕ}
  {booked waiting received : List (ι × GameData)} {db : Database} {standing : ι → BookingStanding}
  {c : ι} {data : GameData}

theorem start (h : db.readRow user = some (row, id)) :
    Ledger user row row id [] [] [] db fun _ : ι => .fresh where
  found := h
  current := nofun
  one := by
    rintro c c' ⟨_, _, _, h⟩
    exact nomatch h
  perm := .nil
  addsUp := .start row
  nodup := .nil
  waits := by simp [BookingStanding.Waits]

variable [DecidableEq ι]

/-- A call changes its standing, without a write and without a change of what it waits for. -/
theorem update (h : Ledger user row₀ row id booked waiting received db standing)
    {st : BookingStanding} (hwaits : ∀ data, st.Waits data ↔ (standing c).Waits data)
    (hread : ∀ data stats id', st = .read data stats id' → (stats = row ∧ id' = id) ∧
      ∀ c', ¬ (standing c').Between) :
    Ledger user row₀ row id booked waiting received db (Function.update standing c st) where
  found := h.found
  current := (Function.forall_update_iff standing fun _ st =>
    ∀ data stats id', st = .read data stats id' → stats = row ∧ id' = id).mpr
    ⟨fun data stats id' hst => (hread data stats id' hst).1, fun c' _ => h.current c'⟩
  one := by
    refine unique_update h.one ?_
    rintro ⟨data, stats, id', hst⟩ c' -
    exact (hread data stats id' hst).2 c'
  perm := h.perm
  addsUp := h.addsUp
  nodup := h.nodup
  waits := by
    intro c' data
    by_cases hcc : c' = c
    · subst hcc
      rw [Function.update_self, hwaits, h.waits]
    · rw [Function.update_of_ne hcc, h.waits]

/-- A call arrives with a game. -/
theorem receive (h : Ledger user row₀ row id booked waiting received db standing)
    (hc : standing c = .fresh) :
    Ledger user row₀ row id booked ((c, data) :: waiting) (received ++ [(c, data)]) db
      (Function.update standing c (.called data)) where
  found := h.found
  current := (Function.forall_update_iff standing fun _ st =>
    ∀ data stats id', st = .read data stats id' → stats = row ∧ id' = id).mpr
    ⟨nofun, fun c' _ => h.current c'⟩
  one := by
    refine unique_update h.one ?_
    rintro ⟨_, _, _, hst⟩
    exact nomatch hst
  perm := by
    refine (h.perm.append_right _).trans ?_
    rw [List.append_assoc]
    exact (List.perm_append_singleton _ _).append_left booked
  addsUp := h.addsUp
  nodup := by
    rw [List.map_cons, List.nodup_cons]
    refine ⟨fun hmem => ?_, h.nodup⟩
    obtain ⟨⟨c', data'⟩, hwaiting, rfl⟩ := List.mem_map.mp hmem
    have hwaits := (h.waits c' data').mp hwaiting
    rw [show standing c' = _ from hc] at hwaits
    exact hwaits
  waits := by
    intro c' data'
    by_cases hcc : c' = c
    · subst hcc
      have hnone : (c', data') ∉ waiting := by
        rw [h.waits, hc]
        exact fun impossible => impossible
      simp [hnone, BookingStanding.Waits]
    · rw [Function.update_of_ne hcc, ← h.waits, List.mem_cons]
      simp [hcc]

/-- A call writes the row it has computed from the one it read. -/
theorem write {stats : Statistics} {id' : ℕ}
    (h : Ledger user row₀ row id booked waiting received db standing)
    (hc : standing c = .read data stats id') (hbooks : BooksOn data stats id' row') :
    Ledger user row₀ row' id ((c, data) :: booked) (waiting.erase (c, data)) received
      (db.updateStatistics row') (Function.update standing c .written) where
  found := by
    obtain ⟨-, rfl⟩ := h.current c data stats id' hc
    have hfound := h.found
    rw [← hbooks.userId] at hfound ⊢
    exact Database.readRow_updateStatistics hfound
  current := by
    intro c' data' stats' id'' hc'
    by_cases hcc : c' = c
    · subst hcc
      simp at hc'
    · rw [Function.update_of_ne hcc] at hc'
      exact absurd (h.one c' c ⟨_, _, _, hc'⟩ ⟨_, _, _, hc⟩) hcc
  one := by
    refine unique_update h.one ?_
    rintro ⟨_, _, _, hst⟩
    exact nomatch hst
  perm := by
    have hmem : (c, data) ∈ waiting := (h.waits c data).mpr (by rw [hc]; rfl)
    refine h.perm.trans ((List.Perm.append_left booked (List.perm_cons_erase hmem)).trans ?_)
    exact List.perm_middle
  addsUp := by
    obtain ⟨rfl, -⟩ := h.current c data stats id' hc
    exact h.addsUp.book hbooks
  nodup := h.nodup.sublist ((List.erase_sublist ..).map _)
  waits := by
    intro c' data'
    by_cases hcc : c' = c
    · subst hcc
      rw [Function.update_self]
      refine iff_of_false (fun hmem => ?_) fun impossible => impossible
      have hwaits := (h.waits c' data').mp (List.mem_of_mem_erase hmem)
      rw [hc] at hwaits
      obtain rfl : data' = data := hwaits
      exact ((List.Nodup.of_map _ h.nodup).mem_erase_iff.mp hmem).1 rfl
    · rw [Function.update_of_ne hcc, ← h.waits]
      exact List.mem_erase_of_ne fun heq => hcc (congrArg Prod.fst heq)

end Ledger

end Ledger

/-! ## Runs -/

section Runs

variable {ι : Type} {user : String} {s₀ : Managers} {row₀ : Statistics} {id : ℕ}

abbrev BookingConfig (ι : Type) : Type :=
  Config operations Managers ι Unit GameData (Option Error)

def ReadsStatistics (client : Client operations Unit GameData (Option Error)) : Bool :=
  match client.nextOp with
  | some (.database (.selectStatistics _)) => true
  | _ => false

variable [DecidableEq ι]

/-- A call reads the row only when no other call is between its read and its write. -/
def OneBooking (user : String) (cfg : BookingConfig ι) : Service.Label ι GameData Unit → Prop
  | .perform c => ReadsStatistics (cfg.clients c) = true →
      ∀ c', ¬ ((bookingDiscipline user).standing c' cfg.trace).Between
  | _ => True

instance [Fintype ι] {cfg : BookingConfig ι} :
    DecidablePred fun l : Service.Label ι GameData Unit => OneBooking user cfg l
  | .perform _ => inferInstanceAs (Decidable (_ → _))
  | .connect _ | .receive .. | .finish .. => .isTrue trivial

/-- The ledger of a run so far. -/
def Kept (user : String) (row₀ : Statistics) (id : ℕ) (s : Managers)
    (trace : List (ι × Observation operations Unit GameData (Option Error))) : Prop :=
  ∃ row booked waiting, Ledger user row₀ row id booked waiting (Service.received trace) s.database
    fun c => (bookingDiscipline user).standing c trace

theorem kept_of_run (h₀ : s₀.database.readRow user = some (row₀, id)) {cfg : BookingConfig ι}
    (hrun : Service.Reachable (bookings user) (machine true) (OneBooking user)
      (Service.start s₀) cfg) :
    Kept user row₀ id cfg.shared cfg.trace ∧ ∀ c, (bookingDiscipline user).Keeps (bookings user)
      (fun _ st => st = .fresh) (fun st => st = .done) cfg c := by
  refine (bookings_obey user).reachable (I := Kept user row₀ id) ?_ ?_ ?_ hrun
    ⟨⟨row₀, [], [], .start h₀⟩, fun _ => rfl⟩
  · rintro cfg c _ data ⟨row, booked, waiting, hledger⟩ _ _ hfresh
    refine ⟨row, booked, (c, data) :: waiting, ?_⟩
    rw [Discipline.standing_snoc, Service.received_received, hfresh]
    exact hledger.receive hfresh
  · rintro cfg c _ data o next r s' ⟨row, booked, waiting, hledger⟩ hc hK hallowed hs
    cases o with
    | login | room | game => exact hallowed.elim
    | external o =>
        cases o with
        | throw => cases r
        | _ => exact hallowed.elim
    | database o =>
        obtain ⟨choice, db, hchoice, hx, rfl⟩ := DbOp.step_eq hs
        rw [Bool.true_and] at hchoice
        simp only [DbOp.exec, hchoice] at hx
        cases o with
        | selectStatistics name =>
            obtain ⟨rfl, data, hst⟩ := hallowed
            obtain ⟨rfl, rfl⟩ : r = some [(row, id)] ∧ db = cfg.shared.database := by
              simp only [Bool.false_eq_true, if_false, DbOp.apply_selectStatistics,
                hledger.found] at hx
              exact ⟨congrArg Prod.fst hx.symm, congrArg Prod.snd hx.symm⟩
            refine ⟨⟨row, id, rfl⟩, row, booked, waiting, ?_⟩
            rw [Discipline.standing_snoc, Service.received_called, hst]
            refine hledger.update (fun data' => ?_) fun data' stats id' heq => ?_
            · rw [show (bookingDiscipline name).standing c cfg.trace = _ from hst]
              rfl
            · cases heq
              exact ⟨⟨rfl, rfl⟩, hK (by rw [ReadsStatistics, hc]; rfl)⟩
        | updateStatistics row' =>
            obtain ⟨data, stats, id', hst, hbooks⟩ := hallowed
            obtain ⟨rfl, rfl⟩ : r = some () ∧ db = cfg.shared.database.updateStatistics row' :=
              ⟨congrArg Prod.fst hx.symm, congrArg Prod.snd hx.symm⟩
            refine ⟨rfl, row', (c, data) :: booked, waiting.erase (c, data), ?_⟩
            rw [Discipline.standing_snoc, Service.received_called, hst]
            exact hledger.write hst hbooks
        | _ => exact hallowed.elim
  · rintro s trace c _ data a o ⟨row, booked, waiting, hledger⟩ ⟨hwritten, -⟩
    refine ⟨row, booked, waiting, ?_⟩
    rw [Discipline.standing_snoc, Service.received_finished, hwritten]
    refine hledger.update (fun data' => ?_) fun _ _ _ heq => by cases heq
    rw [show (bookingDiscipline user).standing c trace = _ from hwritten]
    rfl

/-- If each call reads the row only when no other is about to write it, then in the end the
counters hold what was there before and the games of all the calls. -/
theorem countersAddUp_of_oneBooking (h₀ : s₀.database.readRow user = some (row₀, id))
    {cfg : BookingConfig ι}
    (hrun : Service.Reachable (bookings user) (machine true) (OneBooking user)
      (Service.start s₀) cfg) (hended : Service.Quiescent cfg) :
    ∃ row, cfg.shared.database.readRow user = some (row, id) ∧
      AddsUp row₀ row ((Service.received cfg.trace).map Prod.snd) := by
  obtain ⟨⟨row, booked, waiting, hledger⟩, hkeeps⟩ := kept_of_run h₀ hrun
  have hnone : waiting = [] := by
    refine List.eq_nil_iff_forall_not_mem.mpr fun ⟨c, data⟩ hmem => ?_
    have hwaits := (hledger.waits c data).mp hmem
    have hfits := hkeeps c
    unfold Discipline.Keeps at hfits
    cases hc : cfg.clients c with
    | absent =>
        rw [hc] at hfits
        rw [show (bookingDiscipline user).standing c cfg.trace = _ from hfits] at hwaits
        exact hwaits
    | idle =>
        rw [hc] at hfits
        rw [show (bookingDiscipline user).standing c cfg.trace = _ from hfits] at hwaits
        exact hwaits
    | busy d i p => exact hended c d i p hc
    | ended =>
        rw [hc] at hfits
        rw [show (bookingDiscipline user).standing c cfg.trace = _ from hfits] at hwaits
        exact hwaits
  refine ⟨row, hledger.found, hledger.addsUp.perm ?_⟩
  have hperm := hledger.perm
  rw [hnone, List.append_nil] at hperm
  exact (hperm.map _).symm

end Runs

/-! ## Two calls -/

/-- A game of one question, answered rightly. -/
def oneRight : GameData where
  timePerQuestion := 5
  answers := [(⟨"q0", ["a", "b", "c", "d"], 0⟩, 0, 2)]

/-- The run of two calls, each for such a game. -/
def replayBookings (plays : List (Service.Play (Fin 2) GameData Unit Choice))
    (check : BookingConfig (Fin 2) → Service.Label (Fin 2) GameData Unit → Bool) :
    Option (BookingConfig (Fin 2)) :=
  Service.replayIf (bookings "ann") interpreter (Op.admits true) (fun play _ => play.label) check
    ([.connect 0, .connect 1, .receive 0 oneRight, .receive 1 oneRight] ++ plays ++
      [.finish 0 (), .finish 1 ()])
    (Service.start (.init sampleDatabase))

/-- The second call reads after the first has written. -/
theorem countersAddUp_inTurn : ∃ cfg : BookingConfig (Fin 2),
    (∃ row, cfg.shared.database.readRow "ann" = some (row, 1) ∧
      AddsUp ⟨1, 0, 0, 0, 0, 0⟩ row ((Service.received cfg.trace).map Prod.snd)) ∧
    (Service.received cfg.trace).map Prod.snd = [oneRight, oneRight] := by
  have hrun : ((replayBookings
      [.perform 0 usual, .perform 0 usual, .perform 1 usual, .perform 1 usual]
      fun cfg l => decide (OneBooking "ann" cfg l)).any fun cfg => decide (Service.Quiescent cfg) &&
      (Service.received cfg.trace).map Prod.snd = [oneRight, oneRight]) = true := by
    decide +kernel
  obtain ⟨cfg, hcfg, hcheck⟩ := (Option.any_eq_true _ _).mp hrun
  simp only [Bool.and_eq_true, decide_eq_true_iff] at hcheck
  have hreachable := Service.reachable_of_replayIf (K := OneBooking "ann")
    (fun _ _ h => of_decide_eq_true h) hcfg
  exact ⟨cfg, countersAddUp_of_oneBooking (by decide) hreachable hcheck.1, hcheck.2⟩

/-- Both calls read the row before either writes it: one game of the two is counted. -/
theorem not_countersAddUp_together : ∃ cfg : BookingConfig (Fin 2),
    Service.Reachable (bookings "ann") (machine true) (fun _ _ => True)
      (Service.start (.init sampleDatabase)) cfg ∧ Service.Quiescent cfg ∧
    sampleDatabase.readRow "ann" = some (⟨1, 0, 0, 0, 0, 0⟩, 1) ∧
    ¬ ∃ row, cfg.shared.database.readRow "ann" = some (row, 1) ∧
      AddsUp ⟨1, 0, 0, 0, 0, 0⟩ row ((Service.received cfg.trace).map Prod.snd) := by
  have hrun : ((replayBookings
      [.perform 0 usual, .perform 1 usual, .perform 0 usual, .perform 1 usual]
      fun _ _ => true).any fun cfg => decide (Service.Quiescent cfg) &&
      ((Service.received cfg.trace).length = 2 &&
      (cfg.shared.database.readRow "ann").all fun row => row.1.totalGames = 1)) = true := by
    decide +kernel
  obtain ⟨cfg, hcfg, hcheck⟩ := (Option.any_eq_true _ _).mp hrun
  simp only [Bool.and_eq_true, decide_eq_true_iff] at hcheck
  obtain ⟨hended, htwo, htotal⟩ := hcheck
  refine ⟨cfg, Service.reachable_of_replayIf (fun _ _ _ => trivial) hcfg, hended, by decide, ?_⟩
  rintro ⟨row, hrow, hadds⟩
  have hcount := hadds.totalGames
  rw [hrow] at htotal
  rw [List.length_map, htwo, of_decide_eq_true htotal] at hcount
  exact absurd hcount (by decide)

end TriviaServer
