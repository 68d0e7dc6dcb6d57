import TriviaServer.Verification.Framing
import TriviaServer.Verification.Replays

/-! # One response for every request

A handler answers with an error or with the response that carries the id of the request.
Which one is a matter of the path through the program, so it holds for any state and for
anything the database and the world outside return. -/

namespace TriviaServer

open Interaction
open Program (Returns)

/-- An error, or the response of that id. -/
def Response.Matches (id : RequestId) (response : Response) : Prop :=
  response.isError = true ∨ response.responseId = id.toByte

/-- The buffer holds a response that matches the request's id. -/
def RequestResult.Answers (id : RequestId) (r : RequestResult) : Prop :=
  ∃ response, r.buffer = some response ∧ response.Matches id

theorem Error.toRequestResult_answers (e : Error) (self : Handler) (id : RequestId) :
    (e.toRequestResult self).Answers id :=
  ⟨_, rfl, .inl rfl⟩

theorem Response.responseId_of_isError {response : Response} (h : response.isError = true) :
    response.responseId = 0 := by
  cases response <;> first | rfl | cases h

/-- Whatever the calls return, the program answers the request. -/
def Answering (id : RequestId) (p : Action RequestResult) : Prop :=
  p.Returns (RequestResult.Answers id)

namespace Answering

variable {id : RequestId}

theorem bind {α : Type} {p : Action α} {f : α → Action RequestResult}
    (hf : ∀ a, Answering id (f a)) : Answering id (p >>= f) :=
  Returns.bind hf

theorem error (e : Error) (self : Handler) : Answering id (pure (e.toRequestResult self)) :=
  e.toRequestResult_answers self id

theorem response {response : Response} {newHandler : Option Handler} {self : Handler}
    (h : response.responseId = id.toByte) :
    Answering id (pure { buffer := some response, newHandler, self }) :=
  ⟨response, rfl, .inr h⟩

theorem throw (fault : Fault) : Answering id (Action.throw fault) :=
  fun impossible => nomatch impossible

end Answering

/-! ## Login and verification -/

namespace LoginRequestHandler

variable {P : Platform} {request : RequestInfo}

theorem login_answers : Answering .loginRequest (login P request) := by
  refine .bind fun parsed => ?_
  cases parsed with
  | error e => exact .error e _
  | ok request =>
      refine .bind fun res => ?_
      rcases res with e | ⟨_ | _, message⟩
      · exact .error e _
      · exact .response rfl
      · exact .response rfl

theorem signup_answers : Answering .signupRequest (signup P request) := by
  refine .bind fun parsed => ?_
  cases parsed with
  | error e => exact .error e _
  | ok request =>
      refine .bind fun res => ?_
      rcases res with e | ⟨_ | _, message⟩
      · exact .error e _
      · exact .response rfl
      · refine .bind fun code => .bind fun sent => ?_
        cases sent with
        | none => exact .response rfl
        | some e => exact .bind fun _ => .bind fun _ => .error e _

theorem forgotPassword_answers :
    Answering .forgotPasswordRequest (forgotPassword P request) := by
  refine .bind fun parsed => ?_
  cases parsed with
  | error e => exact .error e _
  | ok request =>
      refine .bind fun status => ?_
      cases status with
      | error e => exact .error e _
      | ok status => exact .response rfl

theorem handleRequest_answers (h : request.requestId ≠ .exit) :
    Answering request.requestId (handleRequest P request) := by
  unfold handleRequest
  split_ifs
  · exact .error _ _
  · cases hid : request.requestId with
    | loginRequest => exact login_answers
    | signupRequest => exact signup_answers
    | forgotPasswordRequest => exact forgotPassword_answers
    | exit => exact absurd hid h
    | _ => exact .error _ _

end LoginRequestHandler

namespace VerificationRequestHandler

variable {P : Platform} {tries : UInt32} {email code username : String} {request : RequestInfo}

theorem submitVerificationCode_answers : Answering .submitVerificationCodeRequest
    (submitVerificationCode P tries email code username request) := by
  refine .bind fun parsed => ?_
  cases parsed with
  | error e => exact .error e _
  | ok submitted =>
      dsimp only
      split_ifs
      · exact .response rfl
      · exact .bind fun _ => .bind fun _ => .response rfl
      · exact .response rfl

theorem resendVerificationCode_answers : Answering .resendVerificationCodeRequest
    (resendVerificationCode tries email code username) := by
  refine .bind fun newCode => .bind fun sent => ?_
  cases sent <;> exact .response rfl

theorem handleRequest_answers (h : request.requestId ≠ .exit) :
    Answering request.requestId (handleRequest P tries email code username request) := by
  unfold handleRequest
  dsimp only
  split_ifs
  · exact .error _ _
  · cases hid : request.requestId with
    | submitVerificationCodeRequest => exact submitVerificationCode_answers
    | resendVerificationCodeRequest => exact resendVerificationCode_answers
    | exit => exact absurd hid h
    | _ => exact .error _ _

end VerificationRequestHandler

/-! ## Menu -/

namespace MenuRequestHandler

variable {P : Platform} {user : LoggedUser} {request : RequestInfo}

theorem getPlayersInRoom_answers :
    Answering .getPlayersInRoomRequest (getPlayersInRoom P user request) := by
  refine .bind fun parsed => ?_
  cases parsed with
  | error e => exact .error e _
  | ok parsed =>
      refine .bind fun room => ?_
      cases room with
      | error e => exact .response rfl
      | ok room =>
          refine .bind fun users => .bind fun players => ?_
          cases players <;> exact .response rfl

theorem getPersonalStatistics_answers :
    Answering .getPersonalStatsRequest (getPersonalStatistics user) := by
  refine .bind fun statistics => ?_
  cases statistics with
  | error e => exact .error e _
  | ok statistics => exact .response rfl

theorem getHighScores_answers : Answering .getHighscoresRequest (getHighScores user) := by
  refine .bind fun highScores => ?_
  cases highScores with
  | error e => exact .error e _
  | ok highScores => exact .response rfl

theorem joinRoom_answers : Answering .joinRoomRequest (joinRoom P user request) := by
  refine .bind fun parsed => ?_
  cases parsed with
  | error e => exact .error e _
  | ok parsed =>
      refine .bind fun room => ?_
      cases room with
      | error e => exact .error e _
      | ok room =>
          refine .bind fun added => ?_
          cases added with
          | none => exact .bind fun newHandler => .response rfl
          | some e => exact .response rfl

theorem createRoom_answers : Answering .createRoomRequest (createRoom P user request) := by
  refine .bind fun parsed => ?_
  cases parsed with
  | error e => exact .error e _
  | ok parsed =>
      dsimp only
      split_ifs
      · exact .response rfl
      · exact .bind fun room => .response rfl

theorem getUserData_answers : Answering .getUserDataRequest (getUserData user) := by
  refine .bind fun userData => ?_
  cases userData with
  | error e => exact .error e _
  | ok userData =>
      refine .bind fun statistics => ?_
      cases statistics with
      | error e => exact .error e _
      | ok statistics => exact .response rfl

theorem updateUserData_answers :
    Answering .updateUserDataRequest (updateUserData P user request) := by
  refine .bind fun parsed => ?_
  cases parsed with
  | error e => exact .error e _
  | ok userData =>
      dsimp only
      split_ifs
      · exact .response rfl
      · refine .bind fun updated => ?_
        cases updated with
        | none => exact .response rfl
        | some e => exact .error e _

theorem handleRequest_answers (h : request.requestId ≠ .exit) :
    Answering request.requestId (handleRequest P user request) := by
  unfold handleRequest
  split_ifs
  · exact .error _ _
  · cases hid : request.requestId with
    | logoutRequest => exact .bind fun _ => .response rfl
    | getRoomsRequest => exact .bind fun _ => .bind fun _ => .response rfl
    | getPlayersInRoomRequest => exact getPlayersInRoom_answers
    | getHighscoresRequest => exact getHighScores_answers
    | getPersonalStatsRequest => exact getPersonalStatistics_answers
    | joinRoomRequest => exact joinRoom_answers
    | createRoomRequest => exact createRoom_answers
    | getUserDataRequest => exact getUserData_answers
    | updateUserDataRequest => exact updateUserData_answers
    | exit => exact absurd hid h
    | _ => exact .error _ _

end MenuRequestHandler

/-! ## Rooms -/

namespace RoomMemberRequestHandler

variable {roomUuid roomName : String} {user : LoggedUser} {request : RequestInfo}

theorem leaveRoom_answers : Answering .leaveRoomRequest (leaveRoom roomUuid roomName user) := by
  refine .bind fun roomState => ?_
  cases roomState with
  | none => exact .response rfl
  | some roomState =>
      dsimp only
      split_ifs
      · exact .bind fun _ => .bind fun _ => .response rfl
      · exact .bind fun _ => .response rfl

theorem getRoomState_answers :
    Answering .getRoomStateRequest (getRoomState roomUuid roomName user) := by
  refine .bind fun roomState => ?_
  cases roomState with
  | none => exact .response rfl
  | some roomState =>
      refine .bind fun players => ?_
      cases players with
      | error e => exact .error e _
      | ok players =>
          dsimp only
          split_ifs
          · exact .bind fun _ => .response rfl
          · exact .response rfl

/-- The last case of the `switch` answers nothing, but no relevant request gets there. -/
theorem handleRequest_answers (h : request.requestId ≠ .exit) :
    Answering request.requestId (handleRequest roomUuid roomName user request) := by
  unfold handleRequest
  dsimp only
  split_ifs with hrelevant
  · exact .error _ _
  · simp only [isRequestRelevant, List.mem_cons, List.not_mem_nil, or_false, h] at hrelevant
    cases hid : request.requestId with
    | leaveRoomRequest => exact leaveRoom_answers
    | getRoomStateRequest => exact getRoomState_answers
    | exit => exact absurd hid h
    | _ => simp [hid] at hrelevant

end RoomMemberRequestHandler

namespace RoomAdminRequestHandler

variable {room : String} {user : LoggedUser} {request : RequestInfo}

theorem startGame_answers : Answering .startGameRequest (startGame room user) := by
  refine .bind fun users => ?_
  split_ifs
  · exact .error _ _
  · refine .bind fun game => ?_
    cases game with
    | error e => exact .error e _
    | ok game => exact .bind fun _ => .response rfl

theorem getRoomState_answers : Answering .getRoomStateRequest (getRoomState room user) := by
  refine .bind fun metadata => .bind fun roomState => .bind fun users => .bind fun players => ?_
  cases players with
  | error e => exact .error e _
  | ok players =>
      cases roomState with
      | none => exact .throw _
      | some roomState => exact .response rfl

theorem handleRequest_answers (h : request.requestId ≠ .exit) :
    Answering request.requestId (handleRequest room user request) := by
  unfold handleRequest
  split_ifs
  · exact .error _ _
  · cases hid : request.requestId with
    | closeRoomRequest => exact .bind fun _ => .bind fun _ => .response rfl
    | startGameRequest => exact startGame_answers
    | getRoomStateRequest => exact getRoomState_answers
    | exit => exact absurd hid h
    | _ => exact .error _ _

end RoomAdminRequestHandler

/-! ## Games -/

namespace GameRequestHandler

variable {P : Platform} {game : String} {user : LoggedUser} {request : RequestInfo}

theorem getQuestion_answers : Answering .getQuestionRequest (getQuestion game user) := by
  refine .bind fun finished => ?_
  dsimp only
  split_ifs
  · exact .error _ _
  · exact .bind fun question => .response rfl

theorem submitAnswer_answers :
    Answering .submitAnswerRequest (submitAnswer P game user request) := by
  refine .bind fun parsed => ?_
  cases parsed with
  | error e => exact .error e _
  | ok submitted =>
      refine .bind fun finished => ?_
      split_ifs
      · exact .error _ _
      · refine .bind fun answer => ?_
        cases answer with
        | error e => exact .error e _
        | ok correctAnswer => exact .response rfl

theorem getGameResults_answers :
    Answering .getGameResultsRequest (getGameResults game user) := by
  refine .bind fun finished => ?_
  split_ifs
  · exact .error _ _
  · refine .bind fun usersMap => .bind fun onlinePlayers => .bind fun players => ?_
    cases players with
    | error e => exact .error e _
    | ok players =>
        refine .bind fun playerResults => ?_
        cases usersMap[user]? with
        | none => exact .throw _
        | some data => exact .response rfl

theorem leaveGame_answers : Answering .leaveGameRequest (leaveGame game user) := by
  refine .bind fun _ => .bind fun removed => ?_
  cases removed with
  | none => exact .bind fun _ => .response rfl
  | some e => exact .response rfl

theorem handleRequest_answers (h : request.requestId ≠ .exit) :
    Answering request.requestId (handleRequest P game user request) := by
  unfold handleRequest
  split_ifs
  · exact .error _ _
  · cases hid : request.requestId with
    | leaveGameRequest => exact leaveGame_answers
    | getQuestionRequest => exact getQuestion_answers
    | submitAnswerRequest => exact submitAnswer_answers
    | getGameResultsRequest => exact getGameResults_answers
    | exit => exact absurd hid h
    | _ => exact .error _ _

end GameRequestHandler

/-! ## All handlers -/

/-- The virtual `isRequestRelevant`. -/
def Handler.isRequestRelevant : Handler → RequestInfo → Bool
  | .login => LoginRequestHandler.isRequestRelevant
  | .verification .. => VerificationRequestHandler.isRequestRelevant
  | .menu _ => MenuRequestHandler.isRequestRelevant
  | .roomMember .. => RoomMemberRequestHandler.isRequestRelevant
  | .roomAdmin .. => RoomAdminRequestHandler.isRequestRelevant
  | .game .. => GameRequestHandler.isRequestRelevant

theorem Handler.handleRequest_answers (P : Platform) (h : Handler) (request : RequestInfo)
    (hid : request.requestId ≠ .exit) :
    Answering request.requestId (h.handleRequest P request) := by
  cases h with
  | login => exact LoginRequestHandler.handleRequest_answers hid
  | verification => exact VerificationRequestHandler.handleRequest_answers hid
  | menu => exact MenuRequestHandler.handleRequest_answers hid
  | roomMember => exact RoomMemberRequestHandler.handleRequest_answers hid
  | roomAdmin => exact RoomAdminRequestHandler.handleRequest_answers hid
  | game => exact GameRequestHandler.handleRequest_answers hid

/-- A refused request is answered with an error at once, by the same handler. -/
theorem Handler.handleRequest_refused (P : Platform) {h : Handler} {request : RequestInfo}
    (hrefused : h.isRequestRelevant request = false) :
    ∃ e : Error, h.handleRequest P request = pure (e.toRequestResult h) := by
  cases h <;> simp only [Handler.isRequestRelevant] at hrefused <;> refine ⟨_, if_pos ?_⟩ <;>
    simp only [hrefused, Bool.not_false]

/-- The bytes are an id, the length of a text and the text: that of an error, or of the
response to the request. -/
def WellFormedAnswer (dump : Json → List UInt8) (request : RequestInfo) (r : RequestResult) :
    Prop :=
  ∃ response text, r.buffer = some response ∧ text = dump (JsonSerializer.toJson response) ∧
    r.bytes dump = response.responseId :: (bigEndian text.length ++ text) ∧
    ((response.isError = true ∧ response.responseId = 0) ∨
      response.responseId = request.requestId.toByte)

theorem RequestResult.Answers.wellFormed {dump : Json → List UInt8} {request : RequestInfo}
    {r : RequestResult} (h : r.Answers request.requestId)
    (hdump : ∀ response ∈ r.buffer, (dump (JsonSerializer.toJson response)).length < 2 ^ 32) :
    WellFormedAnswer dump request r := by
  obtain ⟨response, hbuffer, hmatches⟩ := h
  refine ⟨response, _, hbuffer, rfl, ?_, ?_⟩
  · simp only [RequestResult.bytes, hbuffer, JsonSerializer.serializeResponse,
      jsonToSizeBytes_eq (hdump response hbuffer), List.cons_append]
  · rcases hmatches with herror | hid
    · exact .inl ⟨herror, Response.responseId_of_isError herror⟩
    · exact .inr hid

/-- Every request but EXIT that returns is answered by one well-formed frame that matches it,
and a refused one by an error frame without any effect. -/
theorem answers_wellFormed (P : Platform) (dump : Json → List UInt8) (h : Handler)
    (request : RequestInfo) (hid : request.requestId ≠ .exit) {s s' : Managers}
    {t : List (Event operations)} {r : RequestResult}
    (hx : Exec (machine false) (h.handleRequest P request) s t r s')
    (hdump : ∀ response ∈ r.buffer, (dump (JsonSerializer.toJson response)).length < 2 ^ 32) :
    WellFormedAnswer dump request r ∧
      (h.isRequestRelevant request = false →
        (∃ message, r.buffer = some (.error message)) ∧ r.handler = h ∧ s' = s) := by
  constructor
  · have hanswers := hx.of_returns (h.handleRequest_answers P request hid)
    exact RequestResult.Answers.wellFormed hanswers hdump
  · intro hrefused
    obtain ⟨e, he⟩ := h.handleRequest_refused P hrefused
    rw [he] at hx
    cases hx
    exact ⟨⟨e.message, rfl⟩, rfl, rfl⟩

/-- A LOGOUT from the menu, with the text of its response. -/
theorem answers_wellFormed_logout :
    WellFormedAnswer (fun _ => ascii "\x7b\"status\":true\x7d") ⟨.logoutRequest, []⟩
      { buffer := some (.logout true), newHandler := some .login, self := .menu ⟨"ann"⟩ } := by
  have hx : Exec (machine false)
      ((Handler.menu ⟨"ann"⟩).handleRequest samplePlatform ⟨.logoutRequest, []⟩)
      (.init .empty) [⟨.login (.logout "ann"), ()⟩] _ _ :=
    .perform ⟨usual, rfl, rfl⟩ (.pure _ _)
  exact (answers_wellFormed samplePlatform _ _ _ (by decide) hx fun _ _ => by decide).1

end TriviaServer
