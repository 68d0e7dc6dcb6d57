import TriviaServer.Model.Managers

/-! # Fetching questions

The HTTP client and the decoding of percent escapes belong to a library and are parameters,
as the JSON parser is. The constructor of the database fills the pool from here. -/

namespace TriviaServer

open TriviaServer.Action

namespace Json

def isArray : Json → Bool
  | .array _ => true
  | _ => false

/-- `j.size()`; a value that is no container has size 1. -/
def size : Json → ℕ
  | .null => 0
  | .array elements => elements.length
  | .object fields => fields.length
  | _ => 1

/-- The elements that a range loop over an array visits. -/
def elements : Json → List Json
  | .array elements => elements
  | _ => []

/-- `j[i]` for a position that the array has. -/
def element (j : Json) (i : ℕ) : Json := j.elements.getD i .null

end Json

/-- `client.Get`, answering a status and a body if it answers at all, and `decode_url`. -/
structure HttpLibrary where
  get : String → Option (ℕ × List UInt8)
  decodeUrl : String → String

namespace QuestionsFetcher

variable (P : Platform) (H : HttpLibrary)

def invalidFormat : Error := JsonDeserializer.invalid "Invalid JSON format"

def deserializeQuestion (question : Json) : Except Fault (Result QuestionDb) :=
  if !question.contains "question" || !(question.get "question").isString ||
      !question.contains "correct_answer" || !(question.get "correct_answer").isString ||
      !question.contains "incorrect_answers" || !(question.get "incorrect_answers").isArray then
    .ok (.error invalidFormat)
  else if (question.get "incorrect_answers").size ≠ 3 then
    .ok (.error invalidFormat)
  else if !((question.get "incorrect_answers").element 0).isString ||
      !((question.get "incorrect_answers").element 1).isString ||
      !((question.get "incorrect_answers").element 2).isString then
    .ok (.error invalidFormat)
  else do
    let text ← (question.get "question").toString
    let correctAnswer ← (question.get "correct_answer").toString
    let incorrectAnswer1 ← ((question.get "incorrect_answers").element 0).toString
    let incorrectAnswer2 ← ((question.get "incorrect_answers").element 1).toString
    let incorrectAnswer3 ← ((question.get "incorrect_answers").element 2).toString
    return .ok
      { question := H.decodeUrl text
        correctAnswer := H.decodeUrl correctAnswer
        incorrectAnswer1 := H.decodeUrl incorrectAnswer1
        incorrectAnswer2 := H.decodeUrl incorrectAnswer2
        incorrectAnswer3 := H.decodeUrl incorrectAnswer3 }

/-- The loop of `deserializeQuestions`, which stops at the first error. -/
def deserializeEach : List Json → Except Fault (Result (List QuestionDb))
  | [] => return .ok []
  | question :: rest => do
      match ← deserializeQuestion H question with
      | .error e => return .error e
      | .ok question =>
          match ← deserializeEach rest with
          | .error e => return .error e
          | .ok questions => return .ok (question :: questions)

def deserializeQuestions (json : Json) : Except Fault (Result (List QuestionDb)) :=
  if !json.contains "results" || !(json.get "results").isArray then
    .ok (.error invalidFormat)
  else
    deserializeEach H (json.get "results").elements

def path (amount : UInt32) : String :=
  "/api.php?amount=" ++ toString amount.toNat ++ "&type=multiple&difficulty=easy&encode=url3986"

def fetchQuestions (amount : UInt32) : Except Fault (Result (List QuestionDb)) :=
  let notFetched : Error := ⟨"Failed to fetch questions", .httpError⟩
  match H.get (path amount) with
  | none => .ok (.error notFetched)
  | some (status, body) =>
      if status = 200 then
        match P.parse body with
        | none => .ok (.error invalidFormat)
        | some j => do
            match ← deserializeQuestions H j with
            | .error e => return .error e
            | .ok questions =>
                if questions.length ≠ amount.toNat then
                  return .error (JsonDeserializer.invalid "Not enough questions available")
                else
                  return .ok questions
      else
        .ok (.error notFetched)

end QuestionsFetcher

namespace SqliteDatabase

def minQuestionsCount : UInt32 := 50

/-- The loop of the constructor, which stops at the first question that is not added. -/
def addUntilError : List QuestionDb → Action Unit
  | [] => return ()
  | question :: rest => do
      match ← addQuestion question with
      | some _ => return ()
      | none => addUntilError rest

/-- `SqliteDatabase::SqliteDatabase`; `schemaSynced` is whether the first `sync_schema` does
not throw. -/
def construct (schemaSynced : Bool) : Action Unit := do
  if !schemaSynced then
    return ()
  else
    match ← getQuestionsCount with
    | .error _ => return ()
    | .ok questionsCount =>
        if minQuestionsCount ≤ questionsCount then
          return ()
        else
          match ← external (.fetchQuestions (minQuestionsCount - questionsCount)) with
          | .error _ => return ()
          | .ok questions => addUntilError questions

end SqliteDatabase

end TriviaServer
