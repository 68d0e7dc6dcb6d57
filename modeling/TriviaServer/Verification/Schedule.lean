import TriviaServer.Verification.Questions
import TriviaServer.Verification.RoomNumbers

/-! # The schedule of a game

A question has `timePerQuestion` seconds for its answers and five for the correct one. Three
functions compute from the time since the start where the game is, each on its own. -/

namespace TriviaServer

namespace Game

variable {g : Game} {now : ℕ} {answerIndex questionIndex : UInt32} {times : UInt32 × UInt32}

/-! ## The time of an answer -/

/-- What an answer's time has to be: its cast changes nothing, it is less than the time allowed,
and so is what any later record of the answer stores. -/
structure TimedBelow (g : Game) (now : ℕ) (answerIndex questionIndex : UInt32)
    (times : UInt32 × UInt32) : Prop where
  nonneg : 0 ≤ (g.timePerQuestion.toNat : ℤ) - (times.1.toNat - g.timeSinceGameStart now)
  le : (g.timePerQuestion.toNat : ℤ) - (times.1.toNat - g.timeSinceGameStart now) ≤
    g.timePerQuestion.toNat - 1
  cast_eq : (times.2.toNat : ℤ) =
    g.timePerQuestion.toNat - (times.1.toNat - g.timeSinceGameStart now)
  stored : ∀ (g₁ g₂ : Game) user correct,
    g₁.recordAnswer user answerIndex questionIndex times.2 = .ok (correct, g₂) →
    ∃ (data : GameData) (answer : Question × UInt32 × UInt32), g₂.players[user]? = some data ∧
      data.answers[questionIndex.toNat]? = some answer ∧ answer.2.2 < g.timePerQuestion

/-- The time is between 0 and the time allowed, in every way the release time can wrap. -/
theorem Accepts.signedTime (h : g.Accepts now answerIndex questionIndex times.1 times.2) :
    0 ≤ (g.timePerQuestion.toNat : ℤ) - (times.1.toNat - g.timeSinceGameStart now) ∧
      (g.timePerQuestion.toNat : ℤ) - (times.1.toNat - g.timeSinceGameStart now) ≤
        g.timePerQuestion.toNat - 1 := by
  have hpos := time_pos h.time_ne_zero
  have htime := g.toNat_time
  have hrelease := g.toNat_releaseTime questionIndex
  rw [← h.release_eq] at hrelease
  have hbefore := h.before_release
  have hT := g.timePerQuestion.toNat_lt
  have hlow := Nat.div_mul_le_self (g.timeSinceGameStart now) (g.timePerQuestion + 5).toNat
  have hhigh := Nat.lt_div_mul_add (a := g.timeSinceGameStart now) hpos
  rw [← h.questionIndex_eq_div] at hlow hhigh
  generalize questionIndex.toNat * (g.timePerQuestion + 5).toNat = begins at *
  generalize (g.timePerQuestion + 5).toNat = w at *
  omega

/-- A recorded answer is in its player's data as it was submitted. -/
theorem recordAnswer_stores {g₁ g₂ : Game} {user : LoggedUser} {answerTime correct : UInt32}
    (h : g₁.recordAnswer user answerIndex questionIndex answerTime = .ok (correct, g₂)) :
    ∃ data question, g₂.players[user]? = some data ∧
      data.answers[questionIndex.toNat]? = some (question, answerIndex, answerTime) := by
  obtain ⟨data, -, -, -, -, hlt, rfl⟩ := recordAnswer_ok h
  refine ⟨_, data.answers[questionIndex.toNat].1, Std.TreeMap.getElem?_insert_self, ?_⟩
  rw [GameData.submitAnswer, List.getElem?_modify_eq, List.getElem?_eq_getElem hlt]
  rfl

/-! ## The schedule -/

/-- The seconds of a question, with those for its correct answer. -/
def slot (g : Game) : ℕ := g.timePerQuestion.toNat + 5

/-- The game is over after the slots of all questions. Before that the current question is the
one whose slot it is, and answers to it are accepted in all but the last five seconds. -/
structure FollowsSchedule (g : Game) (now : ℕ) : Prop where
  finished : g.isFinished now = true ↔ g.questions.length * g.slot ≤ g.timeSinceGameStart now
  shows : g.timeSinceGameStart now < g.questions.length * g.slot →
    ∃ index question, g.getCurrentQuestion now = .ok (index, question) ∧
      index.toNat = g.timeSinceGameStart now / g.slot
  acceptsOnly : g.timeSinceGameStart now < g.questions.length * g.slot →
    ∀ answerIndex questionIndex times,
      g.checkAnswer now answerIndex questionIndex = .ok (.ok times) →
      questionIndex.toNat = g.timeSinceGameStart now / g.slot
  accepts : g.timeSinceGameStart now < g.questions.length * g.slot →
    ∀ answerIndex questionIndex : UInt32, answerIndex ≤ 4 →
      questionIndex.toNat = g.timeSinceGameStart now / g.slot →
      ((∃ times, g.checkAnswer now answerIndex questionIndex = .ok (.ok times)) ↔
        g.timeSinceGameStart now % g.slot < g.timePerQuestion.toNat)

/-- The end of the current question's time for answers fits in 32 bits, or answers come too late
anyway. A slot that does not fit itself is as short as what is left of it. -/
def ReleaseFits (g : Game) (now : ℕ) : Prop :=
  g.questions.length * g.slot ≤ g.timeSinceGameStart now ∨
    if g.slot < 2 ^ 32 then
      g.timeSinceGameStart now / g.slot * g.slot + g.timePerQuestion.toNat < 2 ^ 32 ∨
        g.timePerQuestion.toNat ≤ g.timeSinceGameStart now % g.slot
    else g.timeSinceGameStart now + 2 ^ 32 < g.slot

theorem currentQuestionIndex_eq (h0 : g.timePerQuestion + 5 ≠ 0) :
    g.currentQuestionIndex now =
      .ok (UInt32.ofNat (g.timeSinceGameStart now / (g.timePerQuestion + 5).toNat)) :=
  if_neg h0

/-- A question that is there is shown. -/
theorem getCurrentQuestion_ok (h0 : g.timePerQuestion + 5 ≠ 0)
    (h : g.questionIndexAt now < g.questions.length) :
    ∃ index question, g.getCurrentQuestion now = .ok (index, question) ∧
      index.toNat = g.questionIndexAt now := by
  have hindex : (UInt32.ofNat (g.timeSinceGameStart now / (g.timePerQuestion + 5).toNat)).toNat =
      g.questionIndexAt now := UInt32.toNat_ofNat'
  refine ⟨_, g.questions[g.questionIndexAt now], ?_, hindex⟩
  rw [getCurrentQuestion, currentQuestionIndex_eq h0]
  simp only [bind, Except.bind, hindex, List.getElem?_eq_getElem h]
  rfl

/-- When an answer passes the check. -/
theorem checkAnswer_ok_iff (h0 : g.timePerQuestion + 5 ≠ 0) (hanswer : answerIndex ≤ 4) :
    (∃ times, g.checkAnswer now answerIndex questionIndex = .ok (.ok times)) ↔
      questionIndex.toNat = g.questionIndexAt now ∧
      g.timeSinceGameStart now < ((questionIndex + 1) * (g.timePerQuestion + 5) - 5).toNat := by
  constructor
  · rintro ⟨times, h⟩
    have haccepts := checkAnswer_accepts h
    refine ⟨haccepts.questionIndexAt, ?_⟩
    rw [← haccepts.release_eq]
    exact haccepts.before_release
  · rintro ⟨hquestion, hrelease⟩
    have hindex : questionIndex =
        UInt32.ofNat (g.timeSinceGameStart now / (g.timePerQuestion + 5).toNat) :=
      UInt32.toNat_inj.mp (hquestion.trans UInt32.toNat_ofNat'.symm)
    rw [checkAnswer, currentQuestionIndex_eq h0, ← hindex]
    simp only [bind, Except.bind, UInt32.not_lt.mpr hanswer, not_true_eq_false, ne_eq, if_false,
      not_le.mpr hrelease]
    exact ⟨_, rfl⟩

/-! ### Slots that fit in 32 bits -/

theorem toNat_time_of_lt (hslot : g.slot < 2 ^ 32) : (g.timePerQuestion + 5).toNat = g.slot := by
  rw [toNat_time]
  exact Nat.mod_eq_of_lt hslot

theorem toNat_time_of_le (hslot : 2 ^ 32 ≤ g.slot) :
    (g.timePerQuestion + 5).toNat + 2 ^ 32 = g.slot := by
  have hT := g.timePerQuestion.toNat_lt
  rw [toNat_time]
  unfold slot at hslot ⊢
  omega

theorem time_le_slot (g : Game) : (g.timePerQuestion + 5).toNat ≤ g.slot := by
  rw [toNat_time]
  exact Nat.mod_le _ _

theorem time_ne_zero_of_lt (hslot : g.slot < 2 ^ 32) : g.timePerQuestion + 5 ≠ 0 := by
  intro h0
  have htime := toNat_time_of_lt hslot
  rw [h0] at htime
  unfold slot at htime
  simp at htime

theorem questionIndexAt_of_lt (hcount : g.questions.length < 2 ^ 32)
    (hbefore : g.timeSinceGameStart now < g.questions.length * (g.timePerQuestion + 5).toNat) :
    g.questionIndexAt now = g.timeSinceGameStart now / (g.timePerQuestion + 5).toNat ∧
      g.questionIndexAt now < g.questions.length := by
  have hlt := Nat.div_lt_of_lt_mul ((Nat.mul_comm _ _).symm ▸ hbefore)
  rw [questionIndexAt, Nat.mod_eq_of_lt (hlt.trans hcount)]
  exact ⟨rfl, hlt⟩

/-- An answer in the current slot comes before the release that is computed if it comes in time,
and the end of that time fits in 32 bits. -/
theorem lt_releaseTime_iff (hslot : g.slot < 2 ^ 32)
    (hquestion : questionIndex.toNat = g.timeSinceGameStart now / g.slot) :
    g.timeSinceGameStart now < ((questionIndex + 1) * (g.timePerQuestion + 5) - 5).toNat ↔
      g.timeSinceGameStart now / g.slot * g.slot + g.timePerQuestion.toNat < 2 ^ 32 ∧
        g.timeSinceGameStart now % g.slot < g.timePerQuestion.toNat := by
  have hmod : g.timeSinceGameStart now % g.slot < g.slot :=
    Nat.mod_lt _ (Nat.lt_of_lt_of_le (by decide) (Nat.le_add_left 5 _))
  have hsplit := Nat.div_add_mod' (g.timeSinceGameStart now) g.slot
  rw [toNat_releaseTime, toNat_time_of_lt hslot, hquestion]
  generalize g.timeSinceGameStart now / g.slot * g.slot = begins at *
  generalize g.timeSinceGameStart now % g.slot = elapsed at *
  unfold slot at *
  omega

theorem followsSchedule_iff_of_lt (hcount : g.questions.length < 2 ^ 32) (hslot : g.slot < 2 ^ 32)
    (hbefore : g.timeSinceGameStart now < g.questions.length * g.slot) :
    g.FollowsSchedule now ↔
      g.timeSinceGameStart now / g.slot * g.slot + g.timePerQuestion.toNat < 2 ^ 32 ∨
        g.timePerQuestion.toNat ≤ g.timeSinceGameStart now % g.slot := by
  have htime := toNat_time_of_lt hslot
  have h0 := time_ne_zero_of_lt hslot
  obtain ⟨hindex, hlt⟩ := questionIndexAt_of_lt hcount (htime.symm ▸ hbefore)
  rw [htime] at hindex
  constructor
  · intro h
    have hquestion : (UInt32.ofNat (g.timeSinceGameStart now / g.slot)).toNat =
        g.timeSinceGameStart now / g.slot :=
      UInt32.toNat_ofNat_of_lt' (hindex ▸ hlt.trans hcount)
    have hiff := h.accepts hbefore 0 _ (by decide) hquestion
    rw [checkAnswer_ok_iff h0 (by decide), lt_releaseTime_iff hslot hquestion] at hiff
    by_contra hnot
    rw [not_or, not_le] at hnot
    exact hnot.1 (hiff.mpr hnot.2).2.1
  · intro hfits
    refine ⟨?_, fun _ => hindex ▸ getCurrentQuestion_ok h0 hlt, ?_, ?_⟩
    · rw [isFinished_iff hcount, htime]
    · intro _ answerIndex questionIndex times hcheck
      rw [(checkAnswer_accepts hcheck).questionIndexAt, hindex]
    · intro _ answerIndex questionIndex hanswer hquestion
      rw [checkAnswer_ok_iff h0 hanswer, lt_releaseTime_iff hslot hquestion, hindex]
      constructor
      · exact fun h => h.2.2
      · exact fun h => ⟨hquestion, hfits.resolve_right (not_le.mpr h), h⟩

/-! ### Slots that do not -/

/-- The first question of a game whose slots do not fit is up before even the wrapped slot ends. -/
theorem before_wrappedSlot (hcount : g.questions.length < 2 ^ 32) (hslot : 2 ^ 32 ≤ g.slot)
    (hbefore : g.timeSinceGameStart now < g.questions.length * g.slot)
    (h : g.FollowsSchedule now) : g.timeSinceGameStart now < (g.timePerQuestion + 5).toNat := by
  have htime := toNat_time_of_le hslot
  have hT := g.timePerQuestion.toNat_lt
  have hunfinished : g.timeSinceGameStart now <
      g.questions.length * (g.timePerQuestion + 5).toNat := by
    rw [← not_le, ← isFinished_iff hcount, h.finished, not_le]
    exact hbefore
  have h0 : g.timePerQuestion + 5 ≠ 0 := by
    intro h0
    simp [h0] at hunfinished
  obtain ⟨hindex, hlt⟩ := questionIndexAt_of_lt hcount hunfinished
  obtain ⟨index, question, hshown, hslots⟩ := h.shows hbefore
  obtain ⟨index', question', hshown', hcode⟩ := getCurrentQuestion_ok h0 hlt
  cases hshown.symm.trans hshown'
  -- the wrapped slots are so short that only the first of them can be the right one
  have hquotient := hindex.symm.trans (hcode.symm.trans hslots)
  have hhigh := Nat.lt_div_mul_add (a := g.timeSinceGameStart now) (time_pos h0)
  have hlow := Nat.div_mul_le_self (g.timeSinceGameStart now) g.slot
  rw [hquotient] at hhigh
  generalize g.timeSinceGameStart now / g.slot = k at hhigh hlow
  have hwide := Nat.mul_le_mul_left k hslot
  have hnarrow : k * (g.timePerQuestion + 5).toNat ≤ k * 4 :=
    Nat.mul_le_mul_left k (by unfold slot at htime; omega)
  unfold slot at htime
  rcases Nat.eq_zero_or_pos k with rfl | hk
  · omega
  · omega

theorem followsSchedule_iff_of_le (hcount : g.questions.length < 2 ^ 32) (hslot : 2 ^ 32 ≤ g.slot)
    (hbefore : g.timeSinceGameStart now < g.questions.length * g.slot) :
    g.FollowsSchedule now ↔ g.timeSinceGameStart now + 2 ^ 32 < g.slot := by
  have htime := toNat_time_of_le hslot
  rw [← htime, Nat.add_lt_add_iff_right]
  refine ⟨before_wrappedSlot hcount hslot hbefore, fun h => ?_⟩
  have hT := g.timePerQuestion.toNat_lt
  have hpos : 0 < g.questions.length := by
    rcases Nat.eq_zero_or_pos g.questions.length with hnone | hpos
    · rw [hnone, Nat.zero_mul] at hbefore
      exact absurd hbefore (Nat.not_lt_zero _)
    · exact hpos
  have h0 : g.timePerQuestion + 5 ≠ 0 := by
    intro h0
    simp [h0] at h
  have hunfinished := h.trans_le (Nat.le_mul_of_pos_left _ hpos)
  have hfirst : g.timeSinceGameStart now / g.slot = 0 :=
    Nat.div_eq_of_lt (by omega)
  obtain ⟨hindex, hlt⟩ := questionIndexAt_of_lt hcount hunfinished
  rw [Nat.div_eq_of_lt h] at hindex
  refine ⟨?_, fun _ => ?_, ?_, ?_⟩
  · rw [isFinished_iff hcount]
    exact iff_of_false (not_le.mpr hunfinished) (not_le.mpr hbefore)
  · rw [hfirst, ← hindex]
    exact getCurrentQuestion_ok h0 hlt
  · intro _ answerIndex questionIndex times hcheck
    rw [(checkAnswer_accepts hcheck).questionIndexAt, hindex, hfirst]
  · intro _ answerIndex questionIndex hanswer hquestion
    rw [hfirst] at hquestion
    rw [checkAnswer_ok_iff h0 hanswer, hindex, toNat_releaseTime, hquestion, Nat.zero_mul,
      Nat.mod_eq_of_lt (show g.timeSinceGameStart now < g.slot by omega)]
    unfold slot at htime
    omega

/-- A game that should be over is over, since a wrapped slot is a shorter one. -/
theorem followsSchedule_of_over (hcount : g.questions.length < 2 ^ 32)
    (hover : g.questions.length * g.slot ≤ g.timeSinceGameStart now) : g.FollowsSchedule now := by
  refine ⟨?_, ?_, ?_, ?_⟩
  · rw [isFinished_iff hcount]
    exact iff_of_true ((Nat.mul_le_mul_left _ g.time_le_slot).trans hover) hover
  · exact fun h => absurd hover (not_le.mpr h)
  · exact fun h => absurd hover (not_le.mpr h)
  · exact fun h => absurd hover (not_le.mpr h)

theorem timeSinceGameStart_add (g : Game) (seconds : ℕ) :
    g.timeSinceGameStart (g.gameStartTime + seconds * nanosecondsPerSecond) = seconds := by
  rw [timeSinceGameStart, Nat.add_sub_cancel_left, Nat.mul_div_cancel _ (by decide)]

/-- A valid room is scheduled right throughout if the last of its releases fits. -/
theorem followsSchedule_throughout_iff {room : RoomData}
    (hvalid : MenuRequestHandler.isValidRoomDetails room = true)
    (hquestions : g.questions.length = room.questionCount.toNat)
    (htime : g.timePerQuestion = room.timePerQuestion) :
    (∀ now, g.FollowsSchedule now) ↔ g.questions.length * g.slot < 2 ^ 32 + 5 := by
  obtain ⟨-, hN, hT⟩ := isValidRoomDetails_bounds hvalid
  rw [← hquestions] at hN
  rw [← htime] at hT
  have hcount : g.questions.length < 2 ^ 32 := hquestions ▸ room.questionCount.toNat_lt
  have hT' := g.timePerQuestion.toNat_lt
  constructor
  · intro h
    rcases lt_or_ge g.slot (2 ^ 32) with hslot | hslot
    · have hlast := h (g.gameStartTime + (g.questions.length - 1) * g.slot * nanosecondsPerSecond)
      have hpos : 0 < g.slot := Nat.lt_of_lt_of_le (by decide) (Nat.le_add_left 5 _)
      have hsplit : (g.questions.length - 1) * g.slot + g.slot = g.questions.length * g.slot := by
        rw [← Nat.succ_mul, Nat.succ_eq_add_one, Nat.sub_add_cancel (by omega)]
      rw [followsSchedule_iff_of_lt hcount hslot (by rw [timeSinceGameStart_add]; omega),
        timeSinceGameStart_add, Nat.mul_div_cancel _ hpos, Nat.mul_mod_left] at hlast
      unfold slot at *
      omega
    · have hwrapped := h (g.gameStartTime + (g.slot - 2 ^ 32) * nanosecondsPerSecond)
      have hle := Nat.le_mul_of_pos_left g.slot (show 0 < g.questions.length by omega)
      rw [followsSchedule_iff_of_le hcount hslot (by rw [timeSinceGameStart_add]; omega),
        timeSinceGameStart_add] at hwrapped
      omega
  · intro hfits now
    have hdouble := Nat.mul_le_mul_right g.slot hN
    have hslot : g.slot < 2 ^ 32 := by
      unfold slot at *
      omega
    rcases le_or_gt (g.questions.length * g.slot) (g.timeSinceGameStart now) with hover | hbefore
    · exact followsSchedule_of_over hcount hover
    · rw [followsSchedule_iff_of_lt hcount hslot hbefore]
      have hquestion : g.timeSinceGameStart now / g.slot + 1 ≤ g.questions.length :=
        Nat.div_lt_of_lt_mul ((Nat.mul_comm _ _).symm ▸ hbefore)
      have hend := Nat.mul_le_mul_right g.slot hquestion
      rw [Nat.add_mul, Nat.one_mul] at hend
      unfold slot at *
      omega

end Game

/-- An answer that is accepted has a time below the time allowed, for every `timePerQuestion`,
any number of questions and at any time since the start, finished or not. -/
theorem answerTime_below {g : Game} {now : ℕ} {answerIndex questionIndex : UInt32}
    {times : UInt32 × UInt32}
    (hcheck : g.checkAnswer now answerIndex questionIndex = .ok (.ok times)) :
    g.TimedBelow now answerIndex questionIndex times := by
  have haccepts := Game.checkAnswer_accepts hcheck
  obtain ⟨hnonneg, hle⟩ := haccepts.signedTime
  have hT := g.timePerQuestion.toNat_lt
  have hcast : (times.2.toNat : ℤ) =
      g.timePerQuestion.toNat - (times.1.toNat - g.timeSinceGameStart now) := by
    rw [haccepts.answerTime_eq, UInt32.ofInt, UInt32.toNat_ofNat']
    omega
  have hlt : times.2.toNat < g.timePerQuestion.toNat := by omega
  refine ⟨hnonneg, hle, hcast, ?_⟩
  intro g₁ g₂ user correct hrecord
  obtain ⟨data, question, hdata, hanswer⟩ := Game.recordAnswer_stores hrecord
  exact ⟨data, _, hdata, hanswer, UInt32.lt_iff_toNat_lt.mpr hlt⟩

/-- The last second of the first question of a game of five-second questions. -/
theorem answerTime_below_lastSecond : sampleGame.TimedBelow 4000000000 0 0 (5, 4) :=
  answerTime_below (by decide)

/-- A game whose number of questions is an `unsigned int` follows its schedule at the times when
the release that is computed fits, and at no others. -/
theorem followsSchedule_iff {g : Game} (hcount : g.questions.length < 2 ^ 32) (now : ℕ) :
    g.FollowsSchedule now ↔ g.ReleaseFits now := by
  rw [Game.ReleaseFits]
  rcases le_or_gt (g.questions.length * g.slot) (g.timeSinceGameStart now) with hover | hbefore
  · exact iff_of_true (Game.followsSchedule_of_over hcount hover) (.inl hover)
  · rw [or_iff_right (not_le.mpr hbefore)]
    split_ifs with hslot
    · exact Game.followsSchedule_iff_of_lt hcount hslot hbefore
    · exact Game.followsSchedule_iff_of_le hcount (not_lt.mp hslot) hbefore

/-- Ten seconds into a game of two five-second questions. -/
theorem followsSchedule_secondQuestion : sampleGame.FollowsSchedule 10000000000 :=
  (followsSchedule_iff (by decide) _).mpr (.inr (by decide))

/-- A game with this time for each of its two questions. -/
def twoQuestions (timePerQuestion : UInt32) : Game :=
  .new [⟨"q0", ["a", "b", "c", "d"], 0⟩, ⟨"q1", ["a", "b", "c", "d"], 0⟩] [⟨"ann"⟩] "g"
    timePerQuestion 0

/-- With 2³² - 5 seconds for a question the sum wraps to zero, and the game is over at once. -/
theorem not_followsSchedule : ¬ ∀ (room : RoomData) (g : Game) (now : ℕ),
    MenuRequestHandler.isValidRoomDetails room = true →
    g.questions.length = room.questionCount.toNat → g.timePerQuestion = room.timePerQuestion →
    g.FollowsSchedule now := by
  intro h
  have hfollows := h ⟨"g", "quiz", 2, 2, 4294967291, false⟩ (twoQuestions 4294967291) 0
    (by decide) rfl rfl
  exact absurd (hfollows.finished.mp (by decide)) (by decide)

end TriviaServer
