import TriviaServer.Verification.Averages
import TriviaServer.Verification.Statistics

/-! # The lifetime average

`submitGameStatistics` weighs the stored average with the answers counted so far. A stored
average of 0 is read as none, and the sums are `unsigned int`. -/

namespace TriviaServer

open Interaction

/-! ## The weighted mean -/

/-- The integer quotient of two averages' weighted sum by the sum of the weights. -/
def weightedMean (average weight average' weight' : ℕ) : ℕ :=
  (average * weight + average' * weight') / (weight + weight')

section WeightedMean

variable {average weight average' weight' : ℕ}

theorem le_weightedMean {lower : ℕ} (hpos : 0 < weight + weight') (h : lower ≤ average)
    (h' : lower ≤ average') : lower ≤ weightedMean average weight average' weight' := by
  rw [weightedMean, Nat.le_div_iff_mul_le hpos, Nat.mul_add]
  exact Nat.add_le_add (Nat.mul_le_mul_right _ h) (Nat.mul_le_mul_right _ h')

theorem weightedMean_le {upper : ℕ} (h : average ≤ upper) (h' : average' ≤ upper) :
    weightedMean average weight average' weight' ≤ upper := by
  apply Nat.div_le_of_le_mul
  rw [Nat.add_mul, Nat.mul_comm average, Nat.mul_comm average']
  exact Nat.add_le_add (Nat.mul_le_mul_left _ h) (Nat.mul_le_mul_left _ h')

/-- An average of 0 does not count only if it has no weight or the other one is 0 too. -/
theorem weightedMean_zero_eq_iff (hpos : 0 < weight') :
    average' = weightedMean 0 weight average' weight' ↔ weight = 0 ∨ average' = 0 := by
  rw [weightedMean, Nat.zero_mul, Nat.zero_add]
  constructor
  · intro heq
    have hle := (Nat.le_div_iff_mul_le (by omega)).mp heq.le
    rw [Nat.mul_add] at hle
    exact (Nat.mul_eq_zero.mp (by omega : average' * weight = 0)).symm
  · rintro (rfl | rfl)
    · rw [Nat.zero_add, Nat.mul_div_cancel _ hpos]
    · rw [Nat.zero_mul, Nat.zero_div]

end WeightedMean

/-! ## The average that is stored -/

/-- The answers counted in a row. -/
def Statistics.totalAnswers (row : Statistics) : ℕ :=
  row.correctAnswers.toNat + row.wrongAnswers.toNat

/-- The mean of a row's average and a game's. -/
def Statistics.meanWith (row : Statistics) (game : GameData) : ℕ :=
  weightedMean row.avgAnswerTime.toNat row.totalAnswers game.averageAnswerTime.toNat
    game.answers.length

/-- An average of 0 may be left out, and the sums for any other are `unsigned int`. -/
def MeanFits (row : Statistics) (game : GameData) : Prop :=
  if row.avgAnswerTime = 0 then row.totalAnswers = 0 ∨ game.averageAnswerTime = 0
  else
    row.avgAnswerTime.toNat * row.totalAnswers +
        game.averageAnswerTime.toNat * game.answers.length < 2 ^ 32 ∧
      row.totalAnswers + game.answers.length < 2 ^ 32

instance (row : Statistics) (game : GameData) : Decidable (MeanFits row game) :=
  inferInstanceAs (Decidable (ite ..))

section Stored

variable {row : Statistics} {game : GameData} {average : UInt32}

theorem numOfAnswers_eq (game : GameData) :
    game.getNumOfCorrectAnswers + game.getNumOfWrongAnswers = UInt32.ofNat game.answers.length := by
  rw [GameData.getNumOfWrongAnswers, UInt32.add_comm, UInt32.sub_add_cancel]

theorem toNat_numOfTotalAnswers (row : Statistics) :
    (SqliteDatabase.toUserStatistics row).numOfTotalAnswers.toNat = row.totalAnswers % 2 ^ 32 :=
  UInt32.toNat_add _ _

/-- What the code stores: the game's average on a row without one, else the wrapped quotient. -/
theorem newAverage_cases
    (h : SqliteDatabase.newAverage (SqliteDatabase.toUserStatistics row) game = .ok average) :
    0 < game.answers.length ∧
      if row.avgAnswerTime = 0 then average = game.averageAnswerTime
      else
        average.toNat = (row.avgAnswerTime.toNat * row.totalAnswers +
            game.averageAnswerTime.toNat * game.answers.length) % 2 ^ 32 /
          ((row.totalAnswers + game.answers.length) % 2 ^ 32) := by
  unfold SqliteDatabase.newAverage at h
  rw [numOfAnswers_eq] at h
  by_cases hzero : row.avgAnswerTime = 0
  · have hnone : (SqliteDatabase.toUserStatistics row).averageAnswerTime = none := by
      simp [SqliteDatabase.toUserStatistics, hzero]
    simp only [hnone] at h
    rw [if_pos hzero]
    obtain ⟨hpos, -, haverage⟩ := GameData.getAverageAnswerTime_eq_ok_iff.mp h
    exact ⟨hpos, haverage⟩
  · have hsome : (SqliteDatabase.toUserStatistics row).averageAnswerTime =
        some row.avgAnswerTime := by
      simp [SqliteDatabase.toUserStatistics, UInt32.pos_iff_ne_zero, hzero]
    simp only [hsome] at h
    cases hgame : game.getAverageAnswerTime with
    | error e =>
        rw [hgame] at h
        cases h
    | ok gameAverage =>
        obtain ⟨hpos, -, rfl⟩ := GameData.getAverageAnswerTime_eq_ok_iff.mp hgame
        simp only [hgame, bind, Except.bind] at h
        split_ifs at h
        cases h
        rw [if_neg hzero]
        refine ⟨hpos, ?_⟩
        rw [UInt32.toNat_div, UInt32.toNat_add, UInt32.toNat_mul, UInt32.toNat_mul,
          UInt32.toNat_add, toNat_numOfTotalAnswers, UInt32.toNat_ofNat']
        simp only [Nat.mul_mod_mod, Nat.add_mod_mod, Nat.mod_add_mod]

/-- The mean is stored if the sums fit and if a stored 0 may be left out. -/
theorem newAverage_eq_mean_iff
    (h : SqliteDatabase.newAverage (SqliteDatabase.toUserStatistics row) game = .ok average)
    (hcount : row.avgAnswerTime = 0 ∨ row.totalAnswers + game.answers.length < 2 ^ 32) :
    average.toNat = row.meanWith game ↔ MeanFits row game := by
  obtain ⟨hpos, haverage⟩ := newAverage_cases h
  rw [Statistics.meanWith, MeanFits]
  by_cases hzero : row.avgAnswerTime = 0
  · rw [if_pos hzero] at haverage ⊢
    rw [haverage, hzero, UInt32.toNat_zero, weightedMean_zero_eq_iff hpos, ← UInt32.toNat_inj]
    rfl
  · have hlt := hcount.resolve_left hzero
    rw [if_neg hzero] at haverage ⊢
    rw [haverage, Nat.mod_eq_of_lt hlt, weightedMean, mod_div_eq_iff (by omega) hlt]
    exact (and_iff_left hlt).symm

end Stored

/-! ## Calls one after the other -/

/-- A call of `submitGameStatistics` that has returned. -/
structure Booking (user : String) where
  game : GameData
  before : Managers
  calls : List (Event operations)
  result : Option Error
  after : Managers
  exec : Exec (machine true) (SqliteDatabase.submitGameStatistics game user) before calls result
    after

/-- The calls for a user, each on the row that the last one has left, from the fresh row on. -/
inductive BookedInTurn (user : String) (id : ℕ) :
    List (Booking user) → Option (Statistics × ℕ) → Prop
  | fresh : BookedInTurn user id [] (some (⟨id, 0, 0, 0, 0, 0⟩, id))
  | book {bookings : List (Booking user)} {found : Option (Statistics × ℕ)}
      (booking : Booking user) : BookedInTurn user id bookings found →
      booking.before.database.readRow user = found →
      BookedInTurn user id (bookings ++ [booking]) (booking.after.database.readRow user)

namespace Booking

variable {user : String} (booking : Booking user)

/-- The row has the mean of the old row and the game. -/
def StoresMean : Prop :=
  ∃ row row' id, booking.before.database.readRow user = some (row, id) ∧
    booking.after.database.readRow user = some (row', id) ∧
    row'.avgAnswerTime.toNat = row.meanWith booking.game

/-- The mean of the row that the call finds and of its game is computed without a loss. -/
def Fits : Prop :=
  ∀ row id, booking.before.database.readRow user = some (row, id) → MeanFits row booking.game

end Booking

section Between

variable {user : String} {bookings : List (Booking user)}

/-- An average is neither below all of the games' averages nor above all of them. -/
def Between (bookings : List (Booking user)) (average : UInt32) : Prop :=
  (∃ booking ∈ bookings, booking.game.averageAnswerTime ≤ average) ∧
    ∃ booking ∈ bookings, average ≤ booking.game.averageAnswerTime

theorem between_last (booking : Booking user) :
    Between (bookings ++ [booking]) booking.game.averageAnswerTime :=
  ⟨⟨booking, by simp, UInt32.le_refl _⟩, booking, by simp, UInt32.le_refl _⟩

/-- An average between the last one and the next game's. -/
theorem Between.append {average average' : UInt32} {booking : Booking user}
    (h : Between bookings average)
    (hlower : ∀ lower, lower ≤ average → lower ≤ booking.game.averageAnswerTime →
      lower ≤ average')
    (hupper : ∀ upper, average ≤ upper → booking.game.averageAnswerTime ≤ upper →
      average' ≤ upper) : Between (bookings ++ [booking]) average' := by
  obtain ⟨⟨low, hlow, hle⟩, high, hhigh, hle'⟩ := h
  constructor
  · rcases UInt32.le_total low.game.averageAnswerTime booking.game.averageAnswerTime with
      hlt | hlt
    · exact ⟨low, List.mem_append_left _ hlow, hlower _ hle hlt⟩
    · exact ⟨booking, by simp, hlower _ (UInt32.le_trans hlt hle) (UInt32.le_refl _)⟩
  · rcases UInt32.le_total high.game.averageAnswerTime booking.game.averageAnswerTime with
      hlt | hlt
    · exact ⟨booking, by simp, hupper _ (UInt32.le_trans hle' hlt) (UInt32.le_refl _)⟩
    · exact ⟨high, List.mem_append_left _ hhigh, hupper _ hle' hlt⟩

/-- Each call stores the mean, and the average that is stored in the end is between the games'. -/
structure MeansStored (id : ℕ) (bookings : List (Booking user))
    (found : Option (Statistics × ℕ)) : Prop where
  stores : ∀ booking ∈ bookings, booking.StoresMean
  between : ∃ row, found = some (row, id) ∧ (bookings = [] → row = ⟨id, 0, 0, 0, 0, 0⟩) ∧
    (bookings ≠ [] → Between bookings row.avgAnswerTime)

end Between

theorem wp_submitGameStatistics_row {user : String} {s : Managers} {row : Statistics} {id : ℕ}
    (game : GameData) (h : s.database.readRow user = some (row, id)) :
    wp (machine true) (fun _ => True) (SqliteDatabase.submitGameStatistics game user)
      (fun _ _ s' => ∃ row', s'.database.readRow user = some (row', id) ∧
        SqliteDatabase.newAverage (SqliteDatabase.toUserStatistics row) game =
          .ok row'.avgAnswerTime) s := by
  unfold SqliteDatabase.submitGameStatistics SqliteDatabase.getUserStatistics
  simp only [wp_bind]
  apply wp_db
  intro c rows db hc hx
  rw [DbOp.exec_succeeds rfl hc, DbOp.apply_selectStatistics, h] at hx
  cases hx
  simp only [Option.toList_some, wp_pure, wp_bind, wp_lift]
  cases hnew : SqliteDatabase.newAverage (SqliteDatabase.toUserStatistics row) game with
  | error e => trivial
  | ok average =>
      rw [ensures_ok]
      apply wp_db
      intro c updated db hc hx
      rw [DbOp.exec_succeeds rfl hc] at hx
      cases hx
      exact ⟨_, Database.readRow_updateStatistics h, rfl⟩

/-- A call whose mean fits stores it. -/
theorem Booking.stores_of_fits {user : String} {row : Statistics} {id : ℕ}
    (booking : Booking user) (h : booking.before.database.readRow user = some (row, id))
    (hfits : booking.Fits) :
    0 < booking.game.answers.length ∧ ∃ row',
      booking.after.database.readRow user = some (row', id) ∧
      row'.avgAnswerTime.toNat = row.meanWith booking.game := by
  obtain ⟨row', hrow', hnew⟩ := booking.exec.of_wp (wp_submitGameStatistics_row booking.game h)
  have hmean := hfits row id h
  refine ⟨(newAverage_cases hnew).1, row', hrow', (newAverage_eq_mean_iff hnew ?_).mpr hmean⟩
  by_cases hzero : row.avgAnswerTime = 0
  · exact .inl hzero
  · rw [MeanFits, if_neg hzero] at hmean
    exact .inr hmean.2

/-- In every sequence of calls whose means fit, each call stores the weighted mean of its row and
its game, and so the average stays between the games'. -/
theorem meansStored_of_fits {user : String} {id : ℕ} {bookings : List (Booking user)}
    {found : Option (Statistics × ℕ)} (h : BookedInTurn user id bookings found)
    (hfits : ∀ booking ∈ bookings, booking.Fits) : MeansStored id bookings found := by
  induction h with
  | fresh => exact ⟨by simp, _, rfl, fun _ => rfl, fun h => absurd rfl h⟩
  | @book bookings found booking _ hfound ih =>
      obtain ⟨hstores, row, rfl, hfresh, hbetween⟩ :=
        ih fun booking hmem => hfits booking (List.mem_append_left _ hmem)
      obtain ⟨hpos, row', hrow', hmean⟩ := booking.stores_of_fits hfound (hfits booking (by simp))
      constructor
      · intro booking' hmem
        rcases List.mem_append.mp hmem with hmem | hmem
        · exact hstores booking' hmem
        · obtain rfl := List.mem_singleton.mp hmem
          exact ⟨row, row', id, hfound, hrow', hmean⟩
      · refine ⟨row', hrow', fun h => by simp at h, fun _ => ?_⟩
        by_cases hnil : bookings = []
        · -- nothing is weighed against the first game
          have hfirst : row'.avgAnswerTime = booking.game.averageAnswerTime := by
            rw [hfresh hnil, Statistics.meanWith] at hmean
            exact UInt32.toNat_inj.mp
              (hmean.trans ((weightedMean_zero_eq_iff hpos).mpr (.inl rfl)).symm)
          rw [hfirst]
          exact between_last booking
        · refine (hbetween hnil).append (fun lower h h' => ?_) fun upper h h' => ?_
          · rw [UInt32.le_iff_toNat_le, hmean]
            exact le_weightedMean (by omega) (UInt32.le_iff_toNat_le.mp h)
              (UInt32.le_iff_toNat_le.mp h')
          · rw [UInt32.le_iff_toNat_le, hmean]
            exact weightedMean_le (UInt32.le_iff_toNat_le.mp h) (UInt32.le_iff_toNat_le.mp h')

/-! ## A few games -/

/-- The sample tables with a row for the user ann, whose id is 1. -/
def tablesWith (row : Statistics) : Managers := .init (sampleDatabase.updateStatistics row)

theorem readRow_tablesWith {row : Statistics} (hid : row.userId = 1) :
    (tablesWith row).database.readRow "ann" = some (row, 1) := by
  have hann : sampleDatabase.readRow "ann" = some (⟨1, 0, 0, 0, 0, 0⟩, row.userId) := by
    rw [hid]
    decide
  rw [← hid]
  exact Database.readRow_updateStatistics hann

/-- The row that a call leaves. -/
def bookedRow (game : GameData) (row : Statistics) : Option (Statistics × ℕ) :=
  (interpreter.run (Op.admits true) (SqliteDatabase.submitGameStatistics game "ann")
    [usual, usual] (tablesWith row)).bind fun out => out.2.2.database.readRow "ann"

/-- One call more, on the row that the others have left. -/
theorem BookedInTurn.next {bookings : List (Booking "ann")} {row row' : Statistics}
    {game : GameData} (h : BookedInTurn "ann" 1 bookings (some (row, 1))) (hid : row.userId = 1)
    (hrun : bookedRow game row = some (row', 1)) :
    ∃ booking : Booking "ann", booking.game = game ∧
      booking.before.database.readRow "ann" = some (row, 1) ∧
      booking.after.database.readRow "ann" = some (row', 1) ∧
      BookedInTurn "ann" 1 (bookings ++ [booking]) (some (row', 1)) := by
  obtain ⟨⟨calls, result, after⟩, hout, hafter⟩ := Option.bind_eq_some_iff.mp hrun
  have hbefore := readRow_tablesWith hid
  have hbooked := h.book ⟨game, _, calls, result, after, Interpreter.exec_of_run hout⟩ hbefore
  rw [hafter] at hbooked
  exact ⟨_, rfl, hbefore, hafter, hbooked⟩

/-- Two questions, which nobody has answered in the time there is. -/
def unanswered (timePerQuestion : UInt32) : GameData :=
  .new sampleGame.questions timePerQuestion

theorem Booking.fits_of_row {user : String} {booking : Booking user} {row : Statistics} {id : ℕ}
    {game : GameData} (hgame : booking.game = game)
    (hrow : booking.before.database.readRow user = some (row, id)) (hfits : MeanFits row game) :
    booking.Fits := by
  intro row' id' hrow'
  obtain ⟨rfl, rfl⟩ := Prod.mk.inj (Option.some.inj (hrow.symm.trans hrow'))
  rw [hgame]
  exact hfits

/-- A game with five seconds for a question, and then one with eight. -/
theorem meansStored_twoGames : ∃ bookings : List (Booking "ann"),
    bookings.map Booking.game = [unanswered 5, unanswered 8] ∧
    MeansStored 1 bookings (some (⟨1, 4, 0, 6, 2, 0⟩, 1)) := by
  obtain ⟨first, hgame, hrow, -, hbooked⟩ := BookedInTurn.fresh.next rfl
    (show bookedRow (unanswered 5) _ = some (⟨1, 2, 0, 5, 1, 0⟩, 1) by decide +kernel)
  obtain ⟨second, hgame', hrow', -, hbooked'⟩ := hbooked.next rfl
    (show bookedRow (unanswered 8) _ = some (⟨1, 4, 0, 6, 2, 0⟩, 1) by decide +kernel)
  refine ⟨_, by simp [hgame, hgame'], meansStored_of_fits hbooked' ?_⟩
  simp only [List.nil_append, List.cons_append, List.mem_cons, List.not_mem_nil, or_false,
    forall_eq_or_imp, forall_eq]
  exact ⟨Booking.fits_of_row hgame hrow (by decide), Booking.fits_of_row hgame' hrow' (by decide)⟩

/-- Three games with 2³⁰ - 1 seconds for a question: the sum of the third mean wraps. -/
theorem not_meansStored : ¬ ∀ (user : String) (id : ℕ) (bookings : List (Booking user))
    (found : Option (Statistics × ℕ)), BookedInTurn user id bookings found →
    MeansStored id bookings found := by
  intro h
  obtain ⟨_, -, -, -, hfirst⟩ := BookedInTurn.fresh.next rfl
    (show bookedRow (unanswered 1073741823) _ = some (⟨1, 2, 0, 1073741823, 1, 0⟩, 1) by
      decide +kernel)
  obtain ⟨_, -, -, -, hsecond⟩ := hfirst.next rfl
    (show bookedRow (unanswered 1073741823) _ = some (⟨1, 4, 0, 1073741823, 2, 0⟩, 1) by
      decide +kernel)
  obtain ⟨third, hgame, hrow, hrow', hthird⟩ := hsecond.next rfl
    (show bookedRow (unanswered 1073741823) _ = some (⟨1, 6, 0, 357913940, 3, 0⟩, 1) by
      decide +kernel)
  obtain ⟨row, row', id, hfound, hfound', hmean⟩ := (h _ _ _ _ hthird).stores third (by simp)
  obtain ⟨rfl, rfl⟩ := Prod.mk.inj (Option.some.inj (hrow.symm.trans hfound))
  obtain ⟨rfl, -⟩ := Prod.mk.inj (Option.some.inj (hrow'.symm.trans hfound'))
  rw [hgame] at hmean
  exact absurd hmean (by decide +kernel)

end TriviaServer
