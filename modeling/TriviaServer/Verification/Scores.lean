import Mathlib.Algebra.Order.BigOperators.Group.List
import Mathlib.Tactic.Linarith
import TriviaServer.Verification.Questions

/-! # The score of a player

The change of a player's score divides by the average answer time, which is the sum of the
recorded times, kept in an `int`, divided by the number of questions. -/

namespace TriviaServer

open Interaction

/-! ## Sums in an `int` -/

theorem toInt_toInt32 (n : UInt32) : n.toInt32.toInt = (n.toNat : ℤ).bmod (2 ^ 32) := by
  rw [Int32.toInt, UInt32.toBitVec_toInt32, BitVec.toInt_eq_toNat_bmod, UInt32.toNat_toBitVec]

/-- The sum wraps, once and for all. -/
theorem toInt_foldl_add {α : Type} (f : α → UInt32) (l : List α) (sum : Int32) :
    (l.foldl (fun sum a => sum + (f a).toInt32) sum).toInt =
      (sum.toInt + (l.map fun a => (f a).toNat).sum).bmod (2 ^ 32) := by
  induction l generalizing sum with
  | nil => simp
  | cons a l ih =>
      have hswap : ∀ x y z : ℤ, x + y + z = x + z + y := fun x y z => by omega
      rw [List.foldl_cons, ih, Int32.toInt_add, toInt_toInt32, Int.bmod_add_bmod, hswap,
        Int.add_bmod_bmod, List.map_cons, List.sum_cons, hswap, Int.add_assoc]
      push_cast
      rfl

/-! ## The average -/

namespace GameData

/-- The recorded times, added up. -/
def totalTime (d : GameData) : ℕ := (d.answers.map fun answer => answer.2.2.toNat).sum

theorem totalTime_le {d : GameData} {timePerQuestion : UInt32}
    (h : ∀ answer ∈ d.answers, answer.2.2 ≤ timePerQuestion) :
    d.totalTime ≤ d.answers.length * timePerQuestion.toNat := by
  have hle : ∀ time ∈ d.answers.map fun answer => answer.2.2.toNat,
      time ≤ timePerQuestion.toNat := by
    intro time htime
    obtain ⟨answer, hanswer, rfl⟩ := List.mem_map.mp htime
    exact UInt32.le_iff_toNat_le.mp (h answer hanswer)
  simpa [totalTime] using List.sum_le_card_nsmul _ _ hle

/-- An entry behind a submitted answer was there before, or is the one for its question. -/
theorem mem_submitAnswer {d : GameData} {answerIndex answerTime : UInt32} {questionIndex : ℕ}
    {answer : Question × UInt32 × UInt32}
    (h : answer ∈ (d.submitAnswer answerIndex questionIndex answerTime).answers) :
    answer ∈ d.answers ∨ ∃ old ∈ d.answers, answer = (old.1, answerIndex, answerTime) := by
  obtain ⟨i, hi⟩ := List.mem_iff_getElem?.mp h
  simp only [submitAnswer, List.getElem?_modify, Option.map_eq_map, Option.map_eq_some_iff] at hi
  obtain ⟨old, hold, rfl⟩ := hi
  have hmem := List.mem_of_getElem? hold
  split_ifs
  · exact .inr ⟨old, hmem, rfl⟩
  · exact .inl hmem

/-- The call returns the quotient if there are answers and it is in range, and nothing else. -/
theorem getAverageAnswerTime_eq_ok_iff {d : GameData} {average : UInt32} :
    d.getAverageAnswerTime = .ok average ↔
      0 < d.answers.length ∧ d.averageQuotient < 2 ^ 32 ∧ average = d.averageAnswerTime := by
  rw [List.length_pos_iff, getAverageAnswerTime]
  split_ifs with hempty hrange
  · simp [List.isEmpty_iff.mp hempty]
  · rw [and_iff_right (mt List.isEmpty_iff.mpr hempty), and_iff_right hrange, Except.ok.injEq,
      eq_comm]
  · exact iff_of_false (fun h => nomatch h) fun h => hrange h.2.1

theorem toNat_averageAnswerTime {d : GameData} (h : d.averageQuotient < 2 ^ 32) :
    d.averageAnswerTime.toNat = d.averageQuotient :=
  UInt32.toNat_ofNat_of_lt' h

/-- A sum of 2³¹ and more is a negative `int`, and a huge number as a `size_t`. -/
theorem averageQuotient_eq (d : GameData) : d.averageQuotient =
    (if d.totalTime % 2 ^ 32 < 2 ^ 31 then d.totalTime % 2 ^ 32
      else 2 ^ 64 - 2 ^ 32 + d.totalTime % 2 ^ 32) / d.answers.length := by
  have hsum : (d.answers.foldl (fun sum answer => sum + answer.2.2.toInt32) (0 : Int32)).toInt =
      (d.totalTime : ℤ).bmod (2 ^ 32) := by
    refine (toInt_foldl_add (fun answer : Question × UInt32 × UInt32 => answer.2.2) _ _).trans ?_
    rw [Int32.toInt_zero, Int.zero_add, totalTime]
  rw [averageQuotient, hsum]
  refine congrArg (· / d.answers.length) ?_
  rw [UInt64.ofInt, UInt64.toNat_ofNat', Int.bmod_def]
  have hr : (d.totalTime : ℤ) % (2 ^ 32 : ℕ) = ((d.totalTime % 2 ^ 32 : ℕ) : ℤ) := by
    push_cast
    rfl
  rw [hr]
  have hlt : d.totalTime % 2 ^ 32 < 2 ^ 32 := Nat.mod_lt _ (by decide)
  generalize d.totalTime % 2 ^ 32 = r at hlt
  split_ifs <;> omega

theorem averageQuotient_of_lt {d : GameData} (h : d.totalTime < 2 ^ 31) :
    d.averageQuotient = d.totalTime / d.answers.length := by
  rw [averageQuotient_eq, Nat.mod_eq_of_lt (by omega), if_pos h]

end GameData

/-! ## Answers in time -/

/-- As the constructor of `Question` builds it. -/
def Question.Built (question : Question) : Prop :=
  ∃ (db : QuestionDb) (shuffled : List String), shuffled.Perm db.answers ∧
    question = .ofDb db shuffled

theorem Question.Built.correctAnswerIndex_ne {question : Question} (h : question.Built) :
    question.correctAnswerIndex ≠ 5 := by
  obtain ⟨db, shuffled, hperm, rfl⟩ := h
  have hlength : shuffled.length = 4 := hperm.length_eq
  have hmem : db.correctAnswer ∈ shuffled := hperm.mem_iff.mpr (by simp [QuestionDb.answers])
  have hlt := hlength ▸ List.idxOf_lt_length_iff.mpr hmem
  intro h
  have htoNat := congrArg UInt32.toNat h
  rw [Question.ofDb, UInt32.toNat_ofNat_of_lt' (by rw [UInt32.size]; omega)] at htoNat
  have h5 : (5 : UInt32).toNat = 5 := rfl
  omega

namespace Game

/-- The games that accepted answers make of a new one. -/
inductive Answered : Game → Prop
  | new {questions players uuid timePerQuestion now} : (∀ q ∈ questions, Question.Built q) →
      Answered (.new questions players uuid timePerQuestion now)
  | answer {g g' now user answerIndex questionIndex releaseTime answerTime correct} : Answered g →
      g.checkAnswer now answerIndex questionIndex = .ok (.ok (releaseTime, answerTime)) →
      g.recordAnswer user answerIndex questionIndex answerTime = .ok (correct, g') → Answered g'

/-- More questions than these can never be answered: their release times have wrapped. -/
def answerable (g : Game) : ℕ := 2 ^ 32 / g.timePerQuestion.toNat + 5

theorem Accepts.lt_answerable {g : Game} {now : ℕ}
    {answerIndex questionIndex currQuestionReleaseTime answerTime : UInt32}
    (h : g.Accepts now answerIndex questionIndex currQuestionReleaseTime answerTime)
    (hT : 0 < g.timePerQuestion.toNat) : questionIndex.toNat < g.answerable := by
  have hw := g.toNat_time
  have hpos := time_pos h.time_ne_zero
  have hT' := g.timePerQuestion.toNat_lt
  have hrelease := h.before_release
  have hlt := currQuestionReleaseTime.toNat_lt
  have hq := h.questionIndex_eq_div
  have hr := g.toNat_releaseTime questionIndex
  rw [← h.release_eq] at hr
  have hlow := Nat.div_mul_le_self (g.timeSinceGameStart now) (g.timePerQuestion + 5).toNat
  have hhigh := Nat.lt_div_mul_add (a := g.timeSinceGameStart now) hpos
  rw [← hq] at hlow hhigh
  rw [answerable]
  generalize (g.timePerQuestion + 5).toNat = w at *
  generalize questionIndex.toNat = q at *
  generalize g.timeSinceGameStart now = elapsed at *
  -- the release time wraps below zero for the first questions only, and not beyond 2³²
  have hcases : q * w + w < 5 ∨ (5 < w ∧ q * w < 2 ^ 32) := by omega
  rcases hcases with hfirst | ⟨hw5, hqw⟩
  · have hle : q ≤ q * w := Nat.le_mul_of_pos_right q hpos
    have hq5 : q < 5 := by omega
    exact hq5.trans_le (Nat.le_add_left 5 _)
  · have hT5 : g.timePerQuestion.toNat ≤ w := by omega
    have hmul : q * g.timePerQuestion.toNat ≤ 2 ^ 32 :=
      (Nat.mul_le_mul_left q hT5).trans hqw.le
    have hle : q ≤ 2 ^ 32 / g.timePerQuestion.toNat := (Nat.le_div_iff_mul_le hT).mpr hmul
    exact hle.trans_lt (Nat.lt_add_of_pos_right (by decide))

/-- What accepted answers leave in a player's data. -/
structure Records (g : Game) (d : GameData) : Prop where
  time_eq : d.timePerQuestion = g.timePerQuestion
  length_eq : d.answers.length = g.questions.length
  built : ∀ answer ∈ d.answers, answer.1.Built
  unanswered : ∀ i answer, d.answers[i]? = some answer → g.answerable ≤ i → answer.2.1 = 5

theorem Records.withPlayers {g : Game} {d : GameData} (h : g.Records d)
    (players : Std.TreeMap LoggedUser GameData) : Records { g with players } d :=
  ⟨h.time_eq, h.length_eq, h.built, h.unanswered⟩

theorem Records.submitAnswer {g : Game} {d : GameData} (h : g.Records d)
    {answerIndex questionIndex answerTime : UInt32} (hq : questionIndex.toNat < g.answerable) :
    g.Records (d.submitAnswer answerIndex questionIndex.toNat answerTime) where
  time_eq := h.time_eq
  length_eq := by rw [GameData.submitAnswer, List.length_modify, h.length_eq]
  built := by
    intro answer hanswer
    rcases GameData.mem_submitAnswer hanswer with hkept | ⟨old, hold, rfl⟩
    · exact h.built answer hkept
    · exact h.built old hold
  unanswered := by
    intro i answer hi hle
    simp only [GameData.submitAnswer, List.getElem?_modify, Option.map_eq_map,
      Option.map_eq_some_iff] at hi
    obtain ⟨old, hold, rfl⟩ := hi
    rw [if_neg (by omega)]
    exact h.unanswered i old hold hle

theorem Answered.records {g : Game} (h : g.Answered) (hT : 0 < g.timePerQuestion.toNat)
    {user : LoggedUser} {d : GameData} (hd : g.players[user]? = some d) : g.Records d := by
  induction h generalizing user d with
  | new hbuilt =>
      rw [new_players] at hd
      split_ifs at hd
      cases hd
      refine ⟨rfl, by simp [GameData.new, Game.new], ?_, ?_⟩
      · intro answer hanswer
        obtain ⟨question, hquestion, rfl⟩ := List.mem_map.mp hanswer
        exact hbuilt question hquestion
      · intro i answer hi _
        obtain ⟨question, hquestion, rfl⟩ := List.mem_map.mp (List.mem_of_getElem? hi)
        rfl
  | answer _ hcheck hrecord ih =>
      obtain ⟨data, question, hdata, -, -, -, rfl⟩ := recordAnswer_ok hrecord
      rw [Std.TreeMap.getElem?_insert] at hd
      split_ifs at hd with huser
      · cases hd
        have hlt := (checkAnswer_accepts hcheck).lt_answerable hT
        exact ((ih hT hdata).submitAnswer hlt).withPlayers _
      · exact (ih hT hd).withPlayers _

/-- Only questions that can be answered are answered correctly. -/
theorem Records.countP_le {g : Game} {d : GameData} (h : g.Records d) :
    (d.answers.countP fun answer => answer.2.1 == answer.1.correctAnswerIndex) ≤ g.answerable := by
  rw [← List.take_append_drop g.answerable d.answers, List.countP_append]
  have hdrop : ((d.answers.drop g.answerable).countP fun answer =>
      answer.2.1 == answer.1.correctAnswerIndex) = 0 := by
    rw [List.countP_eq_zero]
    intro answer hanswer heq
    obtain ⟨i, hi⟩ := List.mem_iff_getElem?.mp hanswer
    rw [List.getElem?_drop] at hi
    have hfive := h.unanswered _ answer hi (Nat.le_add_right _ _)
    rw [hfive, beq_iff_eq] at heq
    exact (h.built answer (List.mem_of_getElem? hi)).correctAnswerIndex_ne heq.symm
  rw [hdrop, Nat.add_zero]
  exact List.countP_le_length.trans (List.length_take_le ..)

end Game

/-! ## The formula -/

namespace GameData

/-- The quotient in `scoreChange`. -/
def scoreQuotient (d : GameData) : ℚ :=
  (d.getNumOfCorrectAnswers * correctAnswerPoints).toNat /
    (d.averageAnswerTime.toNat / d.timePerQuestion.toNat)

/-- The average is positive, the divisor in `scoreChange` is not 0, and both conversions to an
integer type are of numbers in its range. -/
structure ScoreDefined (d : GameData) : Prop where
  average_inRange : d.averageQuotient < 2 ^ 32
  average_pos : 1 ≤ d.averageAnswerTime
  divisor_ne_zero : (d.averageAnswerTime.toNat / d.timePerQuestion.toNat : ℚ) ≠ 0
  score_inRange : -2 ^ 63 ≤ roundHalfAway d.scoreQuotient ∧ roundHalfAway d.scoreQuotient < 2 ^ 63

/-- The recorded times, in 32 bits, add up to a number that is not negative as an `int` and at
least that of the questions; or, for vectors larger than the server can ask for, to a negative
one that the number of questions makes small again. -/
def TimesSuffice (d : GameData) : Prop :=
  let sum := d.totalTime % 2 ^ 32
  (sum < 2 ^ 31 ∧ d.answers.length ≤ sum) ∨
    (2 ^ 31 ≤ sum ∧ d.answers.length ≤ 2 ^ 64 - 2 ^ 32 + sum ∧
      2 ^ 64 - 2 ^ 32 + sum < 2 ^ 32 * d.answers.length)

theorem averageQuotient_iff {d : GameData} (hpos : 0 < d.answers.length) :
    1 ≤ d.averageQuotient ∧ d.averageQuotient < 2 ^ 32 ↔ d.TimesSuffice := by
  have hlt : d.totalTime % 2 ^ 32 < 2 ^ 32 := Nat.mod_lt _ (by decide)
  rw [averageQuotient_eq, Nat.le_div_iff_mul_le hpos, Nat.div_lt_iff_lt_mul hpos, TimesSuffice]
  split_ifs with hsign
  · omega
  · omega

theorem roundHalfAway_mem {x : ℚ} {n : ℕ} (h0 : 0 ≤ x) (hn : x ≤ n) :
    0 ≤ roundHalfAway x ∧ roundHalfAway x ≤ n := by
  rw [roundHalfAway, if_pos h0]
  constructor
  · exact Int.floor_nonneg.mpr (by linarith)
  · rw [← Int.lt_add_one_iff, Int.floor_lt]
    push_cast
    linarith

theorem scoreQuotient_le {d : GameData} (hA : 1 ≤ d.averageAnswerTime.toNat)
    (hT : 0 < d.timePerQuestion.toNat) :
    d.scoreQuotient ≤ (30 * d.getNumOfCorrectAnswers.toNat * d.timePerQuestion.toNat : ℕ) := by
  have hA' : (1 : ℚ) ≤ d.averageAnswerTime.toNat := by exact_mod_cast hA
  have hpoints : (d.getNumOfCorrectAnswers * correctAnswerPoints).toNat ≤
      30 * d.getNumOfCorrectAnswers.toNat := by
    rw [UInt32.toNat_mul, Nat.mul_comm 30]
    exact Nat.mod_le _ _
  calc d.scoreQuotient
      = (d.getNumOfCorrectAnswers * correctAnswerPoints).toNat * d.timePerQuestion.toNat /
          d.averageAnswerTime.toNat := div_div_eq_mul_div ..
    _ ≤ (d.getNumOfCorrectAnswers * correctAnswerPoints).toNat * d.timePerQuestion.toNat :=
        div_le_self (by positivity) hA'
    _ ≤ (30 * d.getNumOfCorrectAnswers.toNat * d.timePerQuestion.toNat : ℕ) := by
        exact_mod_cast Nat.mul_le_mul_right _ hpoints

end GameData

/-- For a player whose answers were all accepted, the formula is defined exactly if the recorded
times add up to enough. -/
theorem scoreDefined_iff {g : Game} (h : g.Answered) (hlength : 2 ≤ g.questions.length)
    (htime : 5 ≤ g.timePerQuestion) {user : LoggedUser} {d : GameData}
    (hd : g.players[user]? = some d) : d.ScoreDefined ↔ d.TimesSuffice := by
  have hT : 5 ≤ g.timePerQuestion.toNat := UInt32.le_iff_toNat_le.mp htime
  have hrecords := h.records (by omega) hd
  rw [← GameData.averageQuotient_iff (hrecords.length_eq ▸ by omega)]
  have haverage : d.averageQuotient < 2 ^ 32 →
      d.averageAnswerTime.toNat = d.averageQuotient := GameData.toNat_averageAnswerTime
  constructor
  · intro hdefined
    have hpos := UInt32.le_iff_toNat_le.mp hdefined.average_pos
    rw [haverage hdefined.average_inRange] at hpos
    exact ⟨hpos, hdefined.average_inRange⟩
  · rintro ⟨hpos, hlt⟩
    rw [← haverage hlt] at hpos
    have hTd : d.timePerQuestion.toNat = g.timePerQuestion.toNat := by rw [hrecords.time_eq]
    have hT' := g.timePerQuestion.toNat_lt
    refine ⟨hlt, UInt32.le_iff_toNat_le.mpr hpos, ?_, ?_⟩
    · exact div_ne_zero (Nat.cast_ne_zero.mpr (by omega)) (Nat.cast_ne_zero.mpr (by omega))
    · have hcount : d.getNumOfCorrectAnswers.toNat ≤ g.answerable :=
        (Nat.mod_le _ _).trans hrecords.countP_le
      have hproduct : d.getNumOfCorrectAnswers.toNat * d.timePerQuestion.toNat ≤
          2 ^ 32 + 5 * d.timePerQuestion.toNat := by
        refine (Nat.mul_le_mul_right _ hcount).trans ?_
        rw [Game.answerable, hTd, Nat.add_mul]
        exact Nat.add_le_add_right (Nat.div_mul_le_self ..) _
      have hnonneg : 0 ≤ d.scoreQuotient := by
        rw [GameData.scoreQuotient]
        positivity
      have hbound := GameData.roundHalfAway_mem hnonneg (d.scoreQuotient_le hpos (by omega))
      rw [Nat.mul_assoc] at hbound
      constructor <;> omega

theorem sampleGame_built : ∀ question ∈ sampleGame.questions, question.Built := by
  intro question hquestion
  simp only [sampleGame, Game.new, List.mem_cons, List.not_mem_nil, or_false] at hquestion
  rcases hquestion with rfl | rfl
  · exact ⟨⟨0, "q0", "a", "b", "c", "d"⟩, _, .refl _, rfl⟩
  · exact ⟨⟨0, "q1", "a", "b", "c", "d"⟩, _, .refl _, rfl⟩

theorem sampleGame_answered : sampleGame.Answered :=
  .new sampleGame_built

/-- The first question is answered after three seconds, the second one after four. -/
theorem scoreDefined_inTime : ∃ g d, Game.Answered g ∧ g.players[(⟨"ann"⟩ : LoggedUser)]? = some d ∧
    d.answers.map (·.2) = [(0, 3), (0, 4)] ∧ d.ScoreDefined := by
  have hfirst := Game.Answered.answer sampleGame_answered
    (show sampleGame.checkAnswer 3000000000 0 0 = .ok (.ok (5, 3)) by decide)
    (show sampleGame.recordAnswer ⟨"ann"⟩ 0 0 3 = .ok (0, _) from rfl)
  have hsecond := Game.Answered.answer hfirst
    (show Game.checkAnswer _ 14000000000 0 1 = .ok (.ok (15, 4)) from rfl)
    (show Game.recordAnswer _ ⟨"ann"⟩ 0 1 4 = .ok (0, _) from rfl)
  refine ⟨_, _, hsecond, rfl, rfl, ?_⟩
  exact (scoreDefined_iff hsecond (by decide) (by decide)
    (show (_ : Game).players[(⟨"ann"⟩ : LoggedUser)]? = _ from rfl)).mpr (.inl (by decide))

/-- Both questions are answered within a second of being put. -/
theorem not_scoreDefined_atOnce :
    ∃ g d, Game.Answered g ∧ 2 ≤ g.questions.length ∧ 5 ≤ g.timePerQuestion ∧
      g.players[(⟨"ann"⟩ : LoggedUser)]? = some d ∧ ¬ d.ScoreDefined := by
  have hfirst := Game.Answered.answer sampleGame_answered
    (show sampleGame.checkAnswer 0 0 0 = .ok (.ok (5, 0)) by decide)
    (show sampleGame.recordAnswer ⟨"ann"⟩ 0 0 0 = .ok (0, _) from rfl)
  have hsecond := Game.Answered.answer hfirst
    (show Game.checkAnswer _ 10000000000 0 1 = .ok (.ok (15, 0)) from rfl)
    (show Game.recordAnswer _ ⟨"ann"⟩ 0 1 0 = .ok (0, _) from rfl)
  refine ⟨_, _, hsecond, by decide, by decide, rfl, fun h => ?_⟩
  exact absurd h.average_pos (by decide)

end TriviaServer
