import TriviaServer.Verification.Scores

/-! # What the recorded answers point at

A recorded answer is the index of one of its question's answers, or the mark of a question that
has not been answered. The check lets one index pass that is neither. -/

namespace TriviaServer

/-- The constructor pushes four answers. -/
theorem Question.Built.length_eq {question : Question} (h : question.Built) :
    question.possibleAnswers.length = 4 := by
  obtain ⟨db, shuffled, hperm, rfl⟩ := h
  exact hperm.length_eq

/-- A call of `Game::submitAnswer`, with its reading of the clock. -/
structure Submission where
  user : LoggedUser
  answerIndex : UInt32
  questionIndex : UInt32
  now : ℕ

/-- The mark of an unanswered question, with the time for a question, or the index of an answer. -/
def RealMark (timePerQuestion : UInt32) (answer : Question × UInt32 × UInt32) : Prop :=
  answer.2 = (5, timePerQuestion) ∨ answer.2.1.toNat < answer.1.possibleAnswers.length

namespace Game

/-- `Game::submitAnswer`. Between its check and its entry other calls may make their entries,
but none of them changes what the check reads. -/
def submitAnswer (g : Game) (s : Submission) : Game :=
  match g.checkAnswer s.now s.answerIndex s.questionIndex with
  | .ok (.ok (_, answerTime)) =>
      match g.recordAnswer s.user s.answerIndex s.questionIndex answerTime with
      | .ok (_, g') => g'
      | .error _ => g
  | _ => g

/-- The game after some calls, in the order of their entries. -/
def submitAnswers (g : Game) (submissions : List Submission) : Game :=
  submissions.foldl submitAnswer g

/-- Every player has one mark for each question, and all of them are real. -/
def RealMarks (g : Game) : Prop :=
  ∀ (user : LoggedUser) data, g.players[user]? = some data →
    data.answers.map Prod.fst = g.questions ∧
      ∀ answer ∈ data.answers, RealMark g.timePerQuestion answer

/-- The question is being asked, it is not released yet, and the user is one of the players. -/
structure Open (g : Game) (s : Submission) : Prop where
  current : g.currentQuestionIndex s.now = .ok s.questionIndex
  unreleased : g.timeSinceGameStart s.now <
    ((s.questionIndex + 1) * (g.timePerQuestion + 5) - 5).toNat
  asked : s.questionIndex.toNat < g.questions.length
  plays : (g.players[s.user]?).isSome = true

/-! ## One call -/

variable {g : Game} {s : Submission}

/-- The entry of a call. -/
def withEntry (g : Game) (s : Submission) (data : GameData) (answerTime : UInt32) : Game :=
  { g with
    players := g.players.insert s.user
      (data.submitAnswer s.answerIndex s.questionIndex.toNat answerTime) }

/-- A call makes its entry only while its question is open, and for an index up to 4. -/
theorem submitAnswer_cases (g : Game) (s : Submission) : g.submitAnswer s = g ∨
    (g.Open s ∧ s.answerIndex ≤ 4 ∧ ∃ data answerTime, g.players[s.user]? = some data ∧
      g.submitAnswer s = g.withEntry s data answerTime) := by
  unfold submitAnswer
  split
  · next releaseTime answerTime hcheck =>
      split
      · next correct g' hrecord =>
          obtain ⟨data, question, hdata, hquestion, -, -, rfl⟩ := recordAnswer_ok hrecord
          have haccepts := checkAnswer_accepts hcheck
          refine .inr ⟨⟨?_, ?_, ?_, ?_⟩, haccepts.answer_le, data, answerTime, hdata, rfl⟩
          · rw [currentQuestionIndex, if_neg haccepts.time_ne_zero, haccepts.question_eq]
          · rw [← haccepts.release_eq]
            exact haccepts.before_release
          · exact (List.getElem?_eq_some_iff.mp hquestion).1
          · rw [hdata]
            rfl
      · exact .inl rfl
  · exact .inl rfl

/-- And then it does make it. -/
theorem Open.submitAnswer (h : g.Open s) (hindex : s.answerIndex ≤ 4) (hg : g.Shaped) :
    ∃ data answerTime, g.players[s.user]? = some data ∧
      g.submitAnswer s = g.withEntry s data answerTime := by
  obtain ⟨data, hdata⟩ := Option.isSome_iff_exists.mp h.plays
  have hquestion := List.getElem?_eq_getElem h.asked
  have hlt : s.questionIndex.toNat < data.answers.length := by
    rw [hg s.user data hdata]
    exact h.asked
  refine ⟨data, UInt32.ofInt (g.timePerQuestion.toNat -
    ((((s.questionIndex + 1) * (g.timePerQuestion + 5) - 5).toNat : ℤ) -
      g.timeSinceGameStart s.now)), hdata, ?_⟩
  have hcheck : ¬ s.answerIndex > 4 := UInt32.not_lt.mpr hindex
  simp only [Game.submitAnswer, checkAnswer, h.current, bind, Except.bind, pure, Except.pure,
    if_neg hcheck, ne_eq, not_true_eq_false, if_false, if_neg (not_le.mpr h.unreleased),
    recordAnswer, hdata, if_pos hlt, hquestion]
  rfl

/-- Whether a question is open is none of the entries' business. -/
theorem open_submitAnswer_iff (g : Game) (s s' : Submission) :
    (g.submitAnswer s).Open s' ↔ g.Open s' := by
  rcases g.submitAnswer_cases s with heq | ⟨-, -, data, answerTime, hdata, heq⟩
  · rw [heq]
  · have hplays : ((g.withEntry s data answerTime).players[s'.user]?).isSome =
        (g.players[s'.user]?).isSome := by
      rw [withEntry, Std.TreeMap.getElem?_insert]
      split_ifs with huser
      · rw [← Std.LawfulEqCmp.eq_of_compare huser, hdata]
        rfl
      · rfl
    rw [heq]
    exact ⟨fun h => ⟨h.current, h.unreleased, h.asked, hplays ▸ h.plays⟩,
      fun h => ⟨h.current, h.unreleased, h.asked, hplays ▸ h.plays⟩⟩

theorem map_fst_submitAnswer (d : GameData) (answerIndex answerTime : UInt32) (q : ℕ) :
    (d.submitAnswer answerIndex q answerTime).answers.map Prod.fst = d.answers.map Prod.fst := by
  apply List.ext_getElem?
  intro i
  simp only [GameData.submitAnswer, List.getElem?_map, List.getElem?_modify]
  cases d.answers[i]? with
  | none => rfl
  | some answer => split_ifs <;> rfl

theorem RealMarks.shaped (h : g.RealMarks) : g.Shaped := by
  intro user data hdata
  rw [← (h user data hdata).1, List.length_map]

/-- A new game has nothing but marks of unanswered questions. -/
theorem realMarks_new (questions : List Question) (players : List LoggedUser) (uuid : String)
    (timePerQuestion : UInt32) (now : ℕ) :
    (Game.new questions players uuid timePerQuestion now).RealMarks := by
  intro user data hdata
  rw [new_players] at hdata
  split_ifs at hdata
  cases hdata
  refine ⟨(List.map_map ..).trans (List.map_id _), fun answer hanswer => ?_⟩
  obtain ⟨question, -, rfl⟩ := List.mem_map.mp hanswer
  exact .inl rfl

/-- An index below 4 is that of an answer. -/
theorem RealMarks.submitAnswer (h : g.RealMarks) (hbuilt : ∀ question ∈ g.questions, question.Built)
    (hindex : g.Open s → s.answerIndex ≠ 4) : (g.submitAnswer s).RealMarks := by
  rcases g.submitAnswer_cases s with heq | ⟨hopen, hle, data, answerTime, hdata, heq⟩
  · rw [heq]
    exact h
  have hlt : s.answerIndex.toNat < 4 := by
    have hne := mt UInt32.toNat_inj.mp (hindex hopen)
    have hle := UInt32.le_iff_toNat_le.mp hle
    change s.answerIndex.toNat ≠ 4 at hne
    change s.answerIndex.toNat ≤ 4 at hle
    omega
  rw [heq]
  intro user data' hdata'
  rw [withEntry, Std.TreeMap.getElem?_insert] at hdata'
  split_ifs at hdata'
  · cases hdata'
    obtain ⟨hquestions, hmarks⟩ := h s.user data hdata
    refine ⟨by rw [map_fst_submitAnswer]; exact hquestions, fun answer hanswer => ?_⟩
    rcases GameData.mem_submitAnswer hanswer with hkept | ⟨old, hold, rfl⟩
    · exact hmarks answer hkept
    · have hquestion := hbuilt old.1 (hquestions ▸ List.mem_map_of_mem hold)
      refine .inr ?_
      rw [hquestion.length_eq]
      exact hlt
  · exact h user data' hdata'

/-- The index 4 is not. -/
theorem RealMarks.four (h : (g.submitAnswer s).RealMarks) (hg : g.Shaped)
    (hbuilt : ∀ question ∈ g.questions, question.Built) (hopen : g.Open s) :
    s.answerIndex ≠ 4 := by
  intro hfour
  obtain ⟨data, answerTime, hdata, heq⟩ := hopen.submitAnswer (by rw [hfour]; decide) hg
  have hlt : s.questionIndex.toNat < data.answers.length := by
    rw [hg s.user data hdata]
    exact hopen.asked
  rw [heq] at h
  obtain ⟨hquestions, hmarks⟩ := h s.user _ Std.TreeMap.getElem?_insert_self
  have hentry : (data.submitAnswer s.answerIndex s.questionIndex.toNat answerTime).answers[
      s.questionIndex.toNat]? = some (data.answers[s.questionIndex.toNat].1, 4, answerTime) := by
    simp [GameData.submitAnswer, List.getElem?_eq_getElem hlt, hfour]
  have hmem := List.mem_of_getElem? hentry
  rcases hmarks _ hmem with hunanswered | hanswer
  · have heq : (4 : UInt32) = 5 := congrArg Prod.fst hunanswered
    exact absurd heq (by decide)
  · have hquestion := hbuilt _ (hquestions ▸ List.mem_map_of_mem hmem)
    rw [hquestion.length_eq] at hanswer
    have hlt : (4 : UInt32).toNat < 4 := hanswer
    exact absurd hlt (by decide)

theorem questions_submitAnswer (g : Game) (s : Submission) :
    (g.submitAnswer s).questions = g.questions := by
  rcases g.submitAnswer_cases s with heq | ⟨-, -, data, answerTime, -, heq⟩
  · rw [heq]
  · rw [heq, withEntry]

theorem submitAnswers_append (g : Game) (submissions : List Submission) (s : Submission) :
    g.submitAnswers (submissions ++ [s]) = (g.submitAnswers submissions).submitAnswer s :=
  List.foldl_append ..

/-- The calls before some call leave the questions, and which of them are open. -/
theorem submitAnswers_keeps (g : Game) (submissions : List Submission) :
    (g.submitAnswers submissions).questions = g.questions ∧
      ∀ s, (g.submitAnswers submissions).Open s ↔ g.Open s := by
  induction submissions generalizing g with
  | nil => exact ⟨rfl, fun _ => Iff.rfl⟩
  | cons s rest ih =>
      obtain ⟨hquestions, hopen⟩ := ih (g.submitAnswer s)
      exact ⟨hquestions.trans (questions_submitAnswer g s),
        fun s' => (hopen s').trans (open_submitAnswer_iff g s s')⟩

/-- If no index is 4 while its question is open, the calls leave real marks. -/
theorem RealMarks.submitAnswers (h : g.RealMarks)
    (hbuilt : ∀ question ∈ g.questions, question.Built) {submissions : List Submission}
    (hindex : ∀ s ∈ submissions, g.Open s → s.answerIndex ≠ 4) :
    (g.submitAnswers submissions).RealMarks := by
  induction submissions generalizing g with
  | nil => exact h
  | cons s rest ih =>
      have hstep := h.submitAnswer hbuilt (hindex s List.mem_cons_self)
      refine ih hstep ?_ fun s' hs' hopen => ?_
      · rw [questions_submitAnswer]
        exact hbuilt
      · rw [open_submitAnswer_iff] at hopen
        exact hindex s' (List.mem_cons_of_mem _ hs') hopen

end Game

/-- In a run of calls on a new game with stored questions the recorded answers point at answers
throughout exactly if no index is 4 while its question is open. -/
theorem realMarks_throughout_iff {questions : List Question}
    (hbuilt : ∀ question ∈ questions, question.Built) (players : List LoggedUser) (uuid : String)
    (timePerQuestion : UInt32) (now : ℕ) (submissions : List Submission) :
    (∀ before, before <+: submissions →
      ((Game.new questions players uuid timePerQuestion now).submitAnswers before).RealMarks) ↔
    ∀ s ∈ submissions, (Game.new questions players uuid timePerQuestion now).Open s →
      s.answerIndex ≠ 4 := by
  have hnew := Game.realMarks_new questions players uuid timePerQuestion now
  constructor
  · intro hmarks s hs hopen
    obtain ⟨before, after, rfl⟩ := List.append_of_mem hs
    have hbefore := hmarks before (List.prefix_append _ _)
    have hafter := hmarks (before ++ [s]) (by simp)
    rw [Game.submitAnswers_append] at hafter
    obtain ⟨hquestions, hkept⟩ := Game.submitAnswers_keeps
      (.new questions players uuid timePerQuestion now) before
    refine hafter.four hbefore.shaped ?_ ((hkept s).mpr hopen)
    rw [hquestions]
    exact hbuilt
  · intro hindex before hbefore
    exact hnew.submitAnswers hbuilt fun s hs => hindex s (hbefore.subset hs)

/-- The right answer, sent at once. -/
theorem realMarks_throughout_right :
    (sampleGame.submitAnswers [⟨⟨"ann"⟩, 0, 0, 0⟩]).RealMarks := by
  refine (realMarks_throughout_iff sampleGame_built [⟨"ann"⟩, ⟨"bob"⟩] "g" 5 0 _).mpr ?_ _
    (List.prefix_refl _)
  intro s hs _
  obtain rfl := List.mem_singleton.mp hs
  decide

/-- The index 4, sent at once. -/
theorem not_realMarks_throughout : ¬ ∀ (questions : List Question) (players : List LoggedUser)
    (uuid : String) (timePerQuestion : UInt32) (now : ℕ) (submissions : List Submission),
    (∀ question ∈ questions, question.Built) → ∀ before, before <+: submissions →
      ((Game.new questions players uuid timePerQuestion now).submitAnswers before).RealMarks := by
  intro h
  have hmarks := h _ [⟨"ann"⟩, ⟨"bob"⟩] "g" 5 0 [⟨⟨"ann"⟩, 4, 0, 0⟩] sampleGame_built _
    (List.prefix_refl _)
  obtain ⟨-, hmarks⟩ := hmarks ⟨"ann"⟩ ⟨false, false, 5,
    [(⟨"q0", ["a", "b", "c", "d"], 0⟩, 4, 0), (⟨"q1", ["a", "b", "c", "d"], 0⟩, 5, 5)]⟩ rfl
  rcases hmarks _ List.mem_cons_self with hunanswered | hanswer
  · exact absurd (congrArg Prod.fst hunanswered) (by decide)
  · exact absurd hanswer (by decide)

end TriviaServer
