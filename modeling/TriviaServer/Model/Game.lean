import TriviaServer.Model.Basic
import Mathlib.Data.Rat.Floor

/-! # Questions, game data and games

`unsigned int` is `UInt32` and wraps as in the code. Clock readings are nanoseconds of the
steady clock, which never runs backwards, so the time since a game's start is a natural
number. -/

namespace TriviaServer

structure QuestionDb where
  id : ℕ := 0
  question : String
  correctAnswer : String
  incorrectAnswer1 : String
  incorrectAnswer2 : String
  incorrectAnswer3 : String
  deriving DecidableEq, Repr

structure Question where
  question : String
  possibleAnswers : List String
  correctAnswerIndex : UInt32
  deriving DecidableEq, Repr

/-- The answers in the order in which the constructor pushes them, before the shuffle. -/
def QuestionDb.answers (q : QuestionDb) : List String :=
  [q.correctAnswer, q.incorrectAnswer1, q.incorrectAnswer2, q.incorrectAnswer3]

/-- `Question::Question`, given the answers in the order the shuffle left them in. -/
def Question.ofDb (q : QuestionDb) (shuffled : List String) : Question where
  question := q.question
  possibleAnswers := shuffled
  correctAnswerIndex := UInt32.ofNat (shuffled.idxOf q.correctAnswer)

def correctAnswerPoints : UInt32 := 30
def incorrectAnswerPoints : UInt32 := 10
def penaltyPoints : ℤ := 20

/-- `answers` holds a question, the chosen answer's index and the time it took. -/
structure GameData where
  isScoreSubmittedToDB : Bool := false
  isPunished : Bool := false
  timePerQuestion : UInt32
  answers : List (Question × UInt32 × UInt32)
  deriving DecidableEq, Repr

/-- `std::round`, halves away from zero. -/
def roundHalfAway (x : ℚ) : ℤ := if 0 ≤ x then ⌊x + 1 / 2⌋ else -⌊-x + 1 / 2⌋

namespace GameData

/-- By default the player is wrong, and answered at the max time. -/
def new (questions : List Question) (timePerQuestion : UInt32) : GameData where
  timePerQuestion := timePerQuestion
  answers := questions.map fun question => (question, 5, timePerQuestion)

def getNumOfCorrectAnswers (d : GameData) : UInt32 :=
  UInt32.ofNat (d.answers.countP fun answer => answer.2.1 == answer.1.correctAnswerIndex)

def getNumOfWrongAnswers (d : GameData) : UInt32 :=
  UInt32.ofNat d.answers.length - d.getNumOfCorrectAnswers

/-- The accumulator is an `int` because of the literal start value 0; the quotient is taken
in `size_t` after the sum's sign has been extended. -/
def averageQuotient (d : GameData) : ℕ :=
  let sum : Int32 := d.answers.foldl (fun sum answer => sum + answer.2.2.toInt32) 0
  (UInt64.ofInt sum.toInt).toNat / d.answers.length

/-- The quotient as an `unsigned int`, for where that conversion is defined. -/
def averageAnswerTime (d : GameData) : UInt32 := UInt32.ofNat d.averageQuotient

/-- `std::round` makes a `double` of the quotient, which is exact below 2⁵³, and a `double` above
`UINT_MAX` has no conversion. Without answers the quotient divides by zero. -/
def getAverageAnswerTime (d : GameData) : Except Fault UInt32 :=
  if d.answers.isEmpty then .error .undefinedArithmetic
  else if d.averageQuotient < 2 ^ 32 then .ok d.averageAnswerTime
  else .error .undefinedArithmetic

def submitAnswer (d : GameData) (answerIndex : UInt32) (questionIndex : ℕ)
    (answerTime : UInt32) : GameData :=
  { d with
    answers := d.answers.modify questionIndex fun answer => (answer.1, answerIndex, answerTime) }

/-- The float expression is read as exact rational arithmetic, with an average that is defined. -/
def scoreChange (d : GameData) : ℤ :=
  let quotient : ℚ := (d.getNumOfCorrectAnswers * correctAnswerPoints).toNat /
    (d.averageAnswerTime.toNat / d.timePerQuestion.toNat)
  let addToScore := roundHalfAway quotient -
    (d.getNumOfWrongAnswers * incorrectAnswerPoints).toNat
  if d.isPunished then addToScore - penaltyPoints else addToScore

end GameData

structure Game where
  uuid : String
  questions : List Question
  timePerQuestion : UInt32
  gameStartTime : ℕ
  onlinePlayers : List LoggedUser
  players : Std.TreeMap LoggedUser GameData

namespace Game

/-- `Game::Game`. Every user gets a fresh `GameData`; `emplace` keeps the first entry. -/
def new (questions : List Question) (players : List LoggedUser) (uuid : String)
    (timePerQuestion : UInt32) (now : ℕ) : Game where
  uuid := uuid
  questions := questions
  timePerQuestion := timePerQuestion
  gameStartTime := now
  onlinePlayers := players
  players := players.foldl
    (fun m player => m.insertIfNew player (GameData.new questions timePerQuestion)) ∅

def nanosecondsPerSecond : ℕ := 1000000000

/-- `timeSinceGameStart.count()`, in whole seconds. -/
def timeSinceGameStart (g : Game) (now : ℕ) : ℕ :=
  (now - g.gameStartTime) / nanosecondsPerSecond

def isFinished (g : Game) (now : ℕ) : Bool :=
  (UInt64.ofNat g.questions.length * (g.timePerQuestion + 5).toUInt64).toNat ≤
    g.timeSinceGameStart now

def currentQuestionIndex (g : Game) (now : ℕ) : Except Fault UInt32 :=
  if g.timePerQuestion + 5 = 0 then
    .error .undefinedArithmetic
  else
    .ok (UInt32.ofNat (g.timeSinceGameStart now / (g.timePerQuestion + 5).toNat))

def getCurrentQuestion (g : Game) (now : ℕ) : Except Fault (UInt32 × Question) := do
  let index ← g.currentQuestionIndex now
  match g.questions[index.toNat]? with
  | some question => return (index, question)
  | none => throw .questionIndex

/-- The part of `Game::submitAnswer` before the sleep: an error, or the release time of the
current question and the time the answer took. -/
def checkAnswer (g : Game) (now : ℕ) (answerIndex questionIndex : UInt32) :
    Except Fault (Result (UInt32 × UInt32)) := do
  let currentQuestionIndex ← g.currentQuestionIndex now
  if answerIndex > 4 then
    return .error { message := "Invalid answer index, use only our client!" }
  else if questionIndex ≠ currentQuestionIndex then
    return .error { message := "Answer submitted for wrong question" }
  else
    let currQuestionReleaseTime := (currentQuestionIndex + 1) * (g.timePerQuestion + 5) - 5
    if currQuestionReleaseTime.toNat ≤ g.timeSinceGameStart now then
      return .error { message := "Answer already released" }
    else
      let answerTimeInSeconds : ℤ := g.timePerQuestion.toNat -
        ((currQuestionReleaseTime.toNat : ℤ) - g.timeSinceGameStart now)
      return .ok (currQuestionReleaseTime, UInt32.ofInt answerTimeInSeconds)

/-- The time point `submitAnswer` sleeps until. -/
def releasedAt (g : Game) (currQuestionReleaseTime : UInt32) : ℕ :=
  g.gameStartTime + currQuestionReleaseTime.toNat * nanosecondsPerSecond

/-- The part of `Game::submitAnswer` after the sleep. -/
def recordAnswer (g : Game) (user : LoggedUser) (answerIndex questionIndex answerTime : UInt32) :
    Except Fault (UInt32 × Game) :=
  match g.players[user]? with
  | none => .error .playerNotFound
  | some data =>
      if questionIndex.toNat < data.answers.length then
        match g.questions[questionIndex.toNat]? with
        | none => .error .questionIndex
        | some question => .ok (question.correctAnswerIndex,
            { g with
              players := g.players.insert user
                (data.submitAnswer answerIndex questionIndex.toNat answerTime) })
      else
        .error .questionIndex

def removePlayer (g : Game) (user : LoggedUser) : Game :=
  { g with onlinePlayers := g.onlinePlayers.filter (· ≠ user) }

/-- A change of one player's data; `_players.at(user)` throws for anybody else. -/
def updatePlayer (g : Game) (user : LoggedUser) (f : GameData → GameData) :
    Except Fault Game :=
  match g.players[user]? with
  | none => .error .playerNotFound
  | some data => .ok { g with players := g.players.insert user (f data) }

def punishPlayer (g : Game) (user : LoggedUser) : Except Fault Game :=
  g.updatePlayer user fun data => { data with isPunished := true }

def markUserResultsAsSubmittedToDB (g : Game) (user : LoggedUser) : Except Fault Game :=
  g.updatePlayer user fun data => { data with isScoreSubmittedToDB := true }

end Game

end TriviaServer
