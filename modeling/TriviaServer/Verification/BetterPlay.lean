import Mathlib.Algebra.Order.Field.Basic
import TriviaServer.Verification.Scores

/-! # Better play scores more

The score is a rounded quotient, whose numerator grows with the right answers and whose divisor
is a truncated average, less the points for wrong answers. Here its sums are exact. -/

namespace TriviaServer

/-! ## Rounding -/

/-- Rounding keeps a distance that is a whole number. -/
theorem roundHalfAway_add_le {x y : ℚ} (n : ℕ) (hx : 0 ≤ x) (h : x + n ≤ y) :
    roundHalfAway x + n ≤ roundHalfAway y := by
  have hn : (0 : ℚ) ≤ n := Nat.cast_nonneg n
  rw [roundHalfAway, if_pos hx, roundHalfAway, if_pos (by linarith), ← Int.floor_add_natCast]
  exact Int.floor_le_floor (by linarith)

namespace GameData

/-! ## The score with exact sums -/

/-- A question, the answer's index and the time it took. -/
def isCorrect (answer : Question × UInt32 × UInt32) : Bool :=
  answer.2.1 == answer.1.correctAnswerIndex

def exactCorrectAnswers (d : GameData) : ℕ := d.answers.countP isCorrect

def exactAverage (d : GameData) : ℕ := d.totalTime / d.answers.length

/-- `scoreChange` in integers and rationals. -/
def exactScoreChange (d : GameData) : ℤ :=
  let quotient : ℚ := (d.exactCorrectAnswers * correctAnswerPoints.toNat : ℕ) /
    (d.exactAverage / d.timePerQuestion.toNat)
  let addToScore := roundHalfAway quotient -
    ((d.answers.length - d.exactCorrectAnswers) * incorrectAnswerPoints.toNat : ℕ)
  if d.isPunished then addToScore - penaltyPoints else addToScore

section Fits

variable {d : GameData} (hcount : 30 * d.answers.length < 2 ^ 32) (htotal : d.totalTime < 2 ^ 31)

include htotal in
theorem averageAnswerTime_eq_exact : d.averageAnswerTime.toNat = d.exactAverage := by
  have hquotient := averageQuotient_of_lt htotal
  rw [toNat_averageAnswerTime, hquotient]
  · rfl
  · exact hquotient ▸ (Nat.div_le_self _ _).trans_lt (by omega)

include hcount

theorem toNat_getNumOfCorrectAnswers : d.getNumOfCorrectAnswers.toNat = d.exactCorrectAnswers := by
  have hle : d.exactCorrectAnswers ≤ d.answers.length := List.countP_le_length
  exact UInt32.toNat_ofNat_of_lt' (show d.exactCorrectAnswers < 2 ^ 32 by omega)

theorem toNat_getNumOfWrongAnswers :
    d.getNumOfWrongAnswers.toNat = d.answers.length - d.exactCorrectAnswers := by
  have hle : d.exactCorrectAnswers ≤ d.answers.length := List.countP_le_length
  have hlength : (UInt32.ofNat d.answers.length).toNat = d.answers.length :=
    UInt32.toNat_ofNat_of_lt' (show d.answers.length < 2 ^ 32 by omega)
  rw [getNumOfWrongAnswers, UInt32.toNat_sub, toNat_getNumOfCorrectAnswers hcount, hlength]
  omega

include htotal

/-- The sums of the code are exact as long as they fit. -/
theorem scoreChange_eq_exact : d.scoreChange = d.exactScoreChange := by
  have hle : d.exactCorrectAnswers ≤ d.answers.length := List.countP_le_length
  have hright : (d.getNumOfCorrectAnswers * correctAnswerPoints).toNat =
      d.exactCorrectAnswers * correctAnswerPoints.toNat := by
    rw [UInt32.toNat_mul, toNat_getNumOfCorrectAnswers hcount]
    exact Nat.mod_eq_of_lt (show d.exactCorrectAnswers * 30 < 2 ^ 32 by omega)
  have hwrong : (d.getNumOfWrongAnswers * incorrectAnswerPoints).toNat =
      (d.answers.length - d.exactCorrectAnswers) * incorrectAnswerPoints.toNat := by
    rw [UInt32.toNat_mul, toNat_getNumOfWrongAnswers hcount]
    exact Nat.mod_eq_of_lt (show (d.answers.length - d.exactCorrectAnswers) * 10 < 2 ^ 32 by omega)
  rw [scoreChange, exactScoreChange, hright, hwrong, averageAnswerTime_eq_exact htotal]

end Fits

/-! ## Two players of one game -/

/-- An answer to the same question that is right if the other is and takes no longer. -/
def NoWorseAnswer (answer answer' : Question × UInt32 × UInt32) : Prop :=
  answer.1 = answer'.1 ∧ (isCorrect answer = true → isCorrect answer' = true) ∧
    answer'.2.2 ≤ answer.2.2

/-- Two players of one game with the same penalty, the second no worse on every question. -/
structure NoWorse (timePerQuestion : UInt32) (a b : GameData) : Prop where
  time_eq : a.timePerQuestion = timePerQuestion
  time_eq' : b.timePerQuestion = timePerQuestion
  punished_eq : a.isPunished = b.isPunished
  time_le : ∀ answer ∈ a.answers, answer.2.2 ≤ timePerQuestion
  time_le' : ∀ answer ∈ b.answers, answer.2.2 ≤ timePerQuestion
  answers : List.Forall₂ NoWorseAnswer a.answers b.answers

/-- The questions that the second player has right and the first has not. -/
def gained (a b : GameData) : ℕ :=
  (a.answers.zip b.answers).countP fun answers => isCorrect answers.2 && !isCorrect answers.1

section Answers

variable {answers answers' : List (Question × UInt32 × UInt32)}

theorem sum_times_le (h : List.Forall₂ NoWorseAnswer answers answers') :
    (answers'.map fun answer => answer.2.2.toNat).sum ≤
      (answers.map fun answer => answer.2.2.toNat).sum := by
  induction h with
  | nil => exact le_rfl
  | cons hanswer _ ih =>
      simp only [List.map_cons, List.sum_cons]
      exact Nat.add_le_add (UInt32.le_iff_toNat_le.mp hanswer.2.2) ih

theorem countP_isCorrect_eq (h : List.Forall₂ NoWorseAnswer answers answers') :
    answers'.countP isCorrect = answers.countP isCorrect +
      (answers.zip answers').countP fun answers => isCorrect answers.2 && !isCorrect answers.1 := by
  induction h with
  | nil => rfl
  | @cons answer answer' _ _ hanswer _ ih =>
      simp only [List.zip_cons_cons, List.countP_cons, ih]
      cases hright : isCorrect answer with
      | true =>
          simp only [hanswer.2.1 hright, Bool.not_true, Bool.and_false, Bool.false_eq_true, if_true,
            if_false]
          omega
      | false =>
          simp only [Bool.not_false, Bool.and_true, Bool.false_eq_true, if_false]
          omega

end Answers

section NoWorse

variable {timePerQuestion : UInt32} {a b : GameData} (h : NoWorse timePerQuestion a b)

include h

theorem NoWorse.average_le : b.exactAverage ≤ a.exactAverage := by
  rw [exactAverage, exactAverage, ← h.answers.length_eq]
  exact Nat.div_le_div_right (sum_times_le h.answers)

theorem NoWorse.correctAnswers_eq :
    b.exactCorrectAnswers = a.exactCorrectAnswers + gained a b :=
  countP_isCorrect_eq h.answers

theorem NoWorse.average_le_time : b.exactAverage ≤ timePerQuestion.toNat :=
  Nat.div_le_of_le_mul (totalTime_le h.time_le')

/-- The quotients, apart by thirty for each question gained. -/
theorem NoWorse.quotient_le (hpos : 1 ≤ b.exactAverage) :
    (a.exactCorrectAnswers * correctAnswerPoints.toNat : ℕ) /
        ((a.exactAverage : ℚ) / timePerQuestion.toNat) + (30 * gained a b : ℕ) ≤
      (b.exactCorrectAnswers * correctAnswerPoints.toNat : ℕ) /
        ((b.exactAverage : ℚ) / timePerQuestion.toNat) := by
  have hA : (0 : ℚ) < a.exactAverage := by exact_mod_cast hpos.trans h.average_le
  have hB : (0 : ℚ) < b.exactAverage := by exact_mod_cast hpos
  have hAB : (b.exactAverage : ℚ) ≤ a.exactAverage := by exact_mod_cast h.average_le
  have hT : (b.exactAverage : ℚ) ≤ timePerQuestion.toNat := by exact_mod_cast h.average_le_time
  have hpoints : correctAnswerPoints.toNat = 30 := rfl
  rw [div_div_eq_mul_div, div_div_eq_mul_div, hpoints, h.correctAnswers_eq]
  push_cast
  have hgain : (30 * gained a b : ℚ) ≤
      30 * gained a b * timePerQuestion.toNat / b.exactAverage := by
    rw [le_div_iff₀ hB]
    exact mul_le_mul_of_nonneg_left hT (by positivity)
  calc (a.exactCorrectAnswers * 30 * timePerQuestion.toNat / a.exactAverage : ℚ) + 30 * gained a b
      ≤ a.exactCorrectAnswers * 30 * timePerQuestion.toNat / b.exactAverage +
          30 * gained a b * timePerQuestion.toNat / b.exactAverage :=
        add_le_add (div_le_div_of_nonneg_left (by positivity) hB hAB) hgain
    _ = (a.exactCorrectAnswers + gained a b) * 30 * timePerQuestion.toNat / b.exactAverage := by
        ring

end NoWorse

end GameData

/-- Who does no worse on any question, with an average of a second at least, scores at least as
much, and forty points more for each question that the other has not right: in exact sums, and in
the sums of the code as long as they fit. -/
theorem scoreChange_noWorse {timePerQuestion : UInt32} {a b : GameData}
    (h : GameData.NoWorse timePerQuestion a b) (hpos : 1 ≤ b.exactAverage) :
    a.exactScoreChange + 40 * GameData.gained a b ≤ b.exactScoreChange ∧
      (30 * a.answers.length < 2 ^ 32 → a.totalTime < 2 ^ 31 →
        a.scoreChange + 40 * GameData.gained a b ≤ b.scoreChange) := by
  have hlength := h.answers.length_eq
  have hexact : a.exactScoreChange + 40 * GameData.gained a b ≤ b.exactScoreChange := by
    have hquotients := roundHalfAway_add_le _ (by positivity) (h.quotient_le hpos)
    have hcorrect := h.correctAnswers_eq
    have hle : b.exactCorrectAnswers ≤ b.answers.length := List.countP_le_length
    have hpoints : incorrectAnswerPoints.toNat = 10 := rfl
    simp only [GameData.exactScoreChange, h.time_eq, h.time_eq', h.punished_eq, hpoints]
    split_ifs <;> push_cast at * <;> omega
  refine ⟨hexact, fun hcount htotal => ?_⟩
  have htotal' : b.totalTime < 2 ^ 31 := (GameData.sum_times_le h.answers).trans_lt htotal
  rw [GameData.scoreChange_eq_exact hcount htotal,
    GameData.scoreChange_eq_exact (hlength ▸ hcount) htotal']
  exact hexact

/-- The data of a player who gives these answers, each with its time, to questions of four seconds
that all have the first answer right. -/
def answering (answers : List (UInt32 × UInt32)) : GameData where
  timePerQuestion := 4
  answers := answers.map fun answer => (⟨"q", ["a", "b", "c", "d"], 0⟩, answer)

/-- The first question is right for both players, the second only for the second one, and the
third for neither; the second player takes less time for the first and the third. -/
theorem scoreChange_noWorse_oneGained :
    (answering [(0, 4), (1, 3), (2, 4)]).exactScoreChange + 40 * 1 ≤
        (answering [(0, 2), (0, 3), (3, 1)]).exactScoreChange ∧
      (answering [(0, 4), (1, 3), (2, 4)]).scoreChange + 40 * 1 ≤
        (answering [(0, 2), (0, 3), (3, 1)]).scoreChange := by
  have h : GameData.NoWorse 4 (answering [(0, 4), (1, 3), (2, 4)])
      (answering [(0, 2), (0, 3), (3, 1)]) := by
    refine ⟨rfl, rfl, rfl, by decide, by decide, ?_⟩
    exact .cons ⟨rfl, by decide, by decide⟩ (.cons ⟨rfl, by decide, by decide⟩
      (.cons ⟨rfl, by decide, by decide⟩ .nil))
  obtain ⟨hexact, hcode⟩ := scoreChange_noWorse h (by decide)
  exact ⟨hexact, hcode (by decide) (by decide)⟩

end TriviaServer
