import TriviaServer.Verification.RoomNumbers
import TriviaServer.Verification.Scores

/-! # The average answer time of a game

The sum of the recorded times is an `int`, and its quotient by the number of questions is taken
in 64 bits after the sign has been extended. What is too large then has no conversion back. -/

namespace TriviaServer

/-! ## Quotients of a sum that wraps -/

/-- A wrapped sum has the quotient of the sum only if it has not wrapped. -/
theorem mod_div_eq_iff {sum n modulus : ℕ} (hpos : 0 < n) (hn : n < modulus) :
    sum % modulus / n = sum / n ↔ sum < modulus := by
  constructor
  · intro heq
    by_contra hlarge
    have hmod := Nat.mod_add_div sum modulus
    have hquotient := Nat.mul_le_mul_left modulus
      (Nat.div_pos (not_lt.mp hlarge) (hpos.trans hn))
    have hle : sum % modulus + n ≤ sum := by omega
    have hdiv := Nat.div_le_div_right (c := n) hle
    rw [Nat.add_div_right _ hpos] at hdiv
    omega
  · intro hlt
    rw [Nat.mod_eq_of_lt hlt]

/-- A sum with bit 31 set gets 32 bits more, and the quotient is past 32 bits. -/
theorem le_div_of_signed {r n : ℕ} (hpos : 0 < n) (hn : n < 2 ^ 32) :
    2 ^ 32 ≤ (2 ^ 64 - 2 ^ 32 + r) / n := by
  rw [Nat.le_div_iff_mul_le hpos]
  omega

/-! ## Recorded times -/

namespace GameData

/-- The data that submitted answers make of a new player's, with times up to the maximum. -/
inductive Recorded (questions : List Question) (timePerQuestion : UInt32) : GameData → Prop
  | new : Recorded questions timePerQuestion (.new questions timePerQuestion)
  | submitAnswer {d : GameData} {answerTime : UInt32} (answerIndex : UInt32) (questionIndex : ℕ) :
      Recorded questions timePerQuestion d → answerTime ≤ timePerQuestion →
      Recorded questions timePerQuestion (d.submitAnswer answerIndex questionIndex answerTime)

variable {questions : List Question} {timePerQuestion : UInt32} {d : GameData}

theorem Recorded.length_eq (h : Recorded questions timePerQuestion d) :
    d.answers.length = questions.length := by
  induction h with
  | new => simp [GameData.new]
  | submitAnswer answerIndex questionIndex _ _ ih =>
      rw [GameData.submitAnswer, List.length_modify, ih]

theorem Recorded.time_le (h : Recorded questions timePerQuestion d) :
    ∀ answer ∈ d.answers, answer.2.2 ≤ timePerQuestion := by
  induction h with
  | new => simp [GameData.new]
  | submitAnswer answerIndex questionIndex _ htime ih =>
      intro answer hanswer
      rcases GameData.mem_submitAnswer hanswer with hkept | ⟨old, -, rfl⟩
      · exact ih answer hkept
      · exact htime

/-- The call returns the quotient of the sum by the number of questions, and no question takes
longer than it may. -/
def TrueAverage (d : GameData) (timePerQuestion : UInt32) : Prop :=
  ∃ average, d.getAverageAnswerTime = .ok average ∧
    average.toNat = d.totalTime / d.answers.length ∧ average ≤ timePerQuestion

/-- The sum of the times fits in an `int`. -/
def SumFits (d : GameData) : Prop := d.totalTime < 2 ^ 31

theorem averageQuotient_eq_iff (hpos : 0 < d.answers.length) (hcount : d.answers.length < 2 ^ 32) :
    d.averageQuotient < 2 ^ 32 ∧ d.averageQuotient = d.totalTime / d.answers.length ↔
      d.SumFits := by
  have hlt : d.totalTime % 2 ^ 32 < 2 ^ 32 := Nat.mod_lt _ (by decide)
  rw [averageQuotient_eq, SumFits]
  split_ifs with hsign
  · rw [mod_div_eq_iff hpos hcount, and_iff_right ((Nat.div_le_self _ _).trans_lt hlt)]
    omega
  · have hlarge := le_div_of_signed (r := d.totalTime % 2 ^ 32) hpos hcount
    refine iff_of_false (fun h => absurd h.1 (not_lt.mpr hlarge)) ?_
    omega

end GameData

/-- The average of a player in a valid room is the true one if the sum of the times fits, and not
otherwise. -/
theorem trueAverage_iff {room : RoomData} {questions : List Question} {d : GameData}
    (hvalid : MenuRequestHandler.isValidRoomDetails room = true)
    (hquestions : questions.length = room.questionCount.toNat)
    (h : GameData.Recorded questions room.timePerQuestion d) :
    d.TrueAverage room.timePerQuestion ↔ d.SumFits := by
  obtain ⟨-, htwo, -⟩ := isValidRoomDetails_bounds hvalid
  have hcount := room.questionCount.toNat_lt
  rw [← hquestions, ← h.length_eq] at htwo hcount
  have hpos : 0 < d.answers.length := by omega
  rw [← GameData.averageQuotient_eq_iff hpos hcount]
  constructor
  · rintro ⟨average, haverage, heq, -⟩
    obtain ⟨-, hrange, rfl⟩ := GameData.getAverageAnswerTime_eq_ok_iff.mp haverage
    exact ⟨hrange, (GameData.toNat_averageAnswerTime hrange).symm.trans heq⟩
  · rintro ⟨hrange, heq⟩
    have haverage := (GameData.toNat_averageAnswerTime hrange).trans heq
    refine ⟨_, GameData.getAverageAnswerTime_eq_ok_iff.mpr ⟨hpos, hrange, rfl⟩, haverage, ?_⟩
    rw [UInt32.le_iff_toNat_le, haverage]
    exact Nat.div_le_of_le_mul (GameData.totalTime_le h.time_le)

/-- Of three questions of ten seconds, the first is answered after three, the second after eight,
and the third not at all. -/
theorem trueAverage_twoAnswered :
    (((GameData.new (sampleGame.questions ++ [⟨"q2", ["a", "b", "c", "d"], 2⟩]) 10).submitAnswer
      0 0 3).submitAnswer 1 1 8).TrueAverage 10 := by
  have hvalid : MenuRequestHandler.isValidRoomDetails ⟨"g", "quiz", 2, 3, 10, false⟩ = true := by
    decide
  refine (trueAverage_iff hvalid rfl (.submitAnswer 1 1 (.submitAnswer 0 0 .new ?_) ?_)).mpr ?_
  · decide
  · decide
  · exact (by decide : (3 + 8 + 10 : ℕ) < 2 ^ 31)

/-- Nobody has answered two questions of 2³⁰ seconds. -/
theorem not_trueAverage : ¬ ∀ (room : RoomData) (questions : List Question) (d : GameData),
    MenuRequestHandler.isValidRoomDetails room = true →
    questions.length = room.questionCount.toNat →
    GameData.Recorded questions room.timePerQuestion d → d.TrueAverage room.timePerQuestion := by
  intro h
  have htrue := h ⟨"g", "quiz", 2, 2, 1073741824, false⟩ sampleGame.questions _ (by decide) rfl .new
  obtain ⟨average, haverage, -⟩ := htrue
  have hundefined : (GameData.new sampleGame.questions 1073741824).getAverageAnswerTime =
      .error .undefinedArithmetic := by decide
  cases hundefined.symm.trans haverage

end TriviaServer
