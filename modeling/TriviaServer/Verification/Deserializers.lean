import Mathlib.Tactic.SplitIfs
import TriviaServer.Model.Json

/-! # What the deserializers accept

A deserializer tests that all its fields are there, then that each has its kind, and converts
them last. A conversion of a value of another kind throws, and nothing catches it. -/

namespace TriviaServer

/-! ## Objects with required fields -/

/-- The kinds of the fields that the requests have. -/
inductive FieldKind where
  | string
  | unsigned
  | stringOrNull
  deriving DecidableEq

def FieldKind.admits : FieldKind → Json → Bool
  | .string, j => j.isString
  | .unsigned, j => j.isNumberUnsigned
  | .stringOrNull, j => j.isString || j.isNull

namespace Json

variable {shape : List (String × FieldKind)} {j : Json}

/-- An object that contains all the fields of a shape, each of its kind. -/
def fits (shape : List (String × FieldKind)) : Json → Bool
  | .object fields => shape.all fun f => (fields.lookup f.1).any f.2.admits
  | _ => false

/-- The fields hold these texts; the text of a null is `none`. -/
def Holds (j : Json) (texts : List (String × Option String)) : Prop :=
  ∀ f ∈ texts, j.get f.1 = match f.2 with
    | some text => .string text
    | none => .null

/-- The two tests of a deserializer, one after the other. -/
theorem fits_eq (hshape : shape ≠ []) : j.fits shape =
    ((shape.all fun f => j.contains f.1) && shape.all fun f => f.2.admits (j.get f.1)) := by
  cases j with
  | object fields =>
      rw [Bool.eq_iff_iff]
      simp only [fits, contains, get, List.all_eq_true, Bool.and_eq_true, ← forall_and]
      refine forall_congr' fun f => forall_congr' fun _ => ?_
      cases fields.lookup f.1 <;> simp
  | _ =>
      obtain ⟨f, rest, rfl⟩ := List.exists_cons_of_ne_nil hshape
      simp [fits, contains]

theorem isString_iff : j.isString = true ↔ ∃ text, j = .string text := by
  cases j <;> simp [isString]

theorem isNull_iff : j.isNull = true ↔ j = .null := by
  cases j <;> simp [isNull]

theorem isNumberUnsigned_iff : j.isNumberUnsigned = true ↔ ∃ n, j = .numberUnsigned n := by
  cases j <;> simp [isNumberUnsigned]

end Json

/-! ## The nine deserializers -/

inductive Deserializer where
  | login | signup | getPlayersInRoom | joinRoom | createRoom | updateUserData | submitAnswer
  | submitVerificationCode | forgotPassword
  deriving DecidableEq

namespace Deserializer

open JsonDeserializer

abbrev Request : Deserializer → Type
  | login => LoginRequest
  | signup => SignupRequest
  | getPlayersInRoom => GetPlayersInRoomRequest
  | joinRoom => JoinRoomRequest
  | createRoom => CreateRoomRequest
  | updateUserData => UpdateUserDataRequest
  | submitAnswer => SubmitAnswerRequest
  | submitVerificationCode => SubmitVerificationCodeRequest
  | forgotPassword => ForgotPasswordRequest

def deserialize : (d : Deserializer) → Option Json → Except Fault (Result d.Request)
  | login => deserializeLoginRequest
  | signup => deserializeSignupRequest
  | getPlayersInRoom => deserializeGetPlayersInRoomRequest
  | joinRoom => deserializeJoinRoomRequest
  | createRoom => deserializeCreateRoomRequest
  | updateUserData => deserializeUpdateUserDataRequest
  | submitAnswer => deserializeSubmitAnswerRequest
  | submitVerificationCode => deserializeSubmitVerificationCodeRequest
  | forgotPassword => deserializeForgotPasswordRequest

/-- The fields that a deserializer requires. -/
def shape : Deserializer → List (String × FieldKind)
  | login => [("username", .string), ("password", .string)]
  | signup =>
      [ ("username", .string), ("password", .string), ("email", .string), ("address", .string)
      , ("phoneNumber", .string), ("birthday", .string) ]
  | getPlayersInRoom => [("roomId", .string)]
  | joinRoom => [("roomId", .string)]
  | createRoom =>
      [ ("name", .string), ("maxPlayers", .unsigned), ("questionCount", .unsigned)
      , ("timePerQuestion", .unsigned) ]
  | updateUserData =>
      [ ("password", .stringOrNull), ("address", .string), ("phoneNumber", .string)
      , ("avatarColor", .string) ]
  | submitAnswer => [("answerId", .unsigned), ("questionId", .unsigned)]
  | submitVerificationCode => [("code", .string)]
  | forgotPassword => [("email", .string)]

theorem shape_ne_nil (d : Deserializer) : d.shape ≠ [] := by
  cases d <;> simp [shape]

/-- The texts of a request, under the fields they come from. -/
def texts : (d : Deserializer) → d.Request → List (String × Option String)
  | login, r => [("username", some r.username), ("password", some r.password)]
  | signup, r =>
      [ ("username", some r.username), ("password", some r.password), ("email", some r.email)
      , ("address", some r.address), ("phoneNumber", some r.phoneNumber)
      , ("birthday", some r.birthday) ]
  | getPlayersInRoom, r => [("roomId", some r.roomId)]
  | joinRoom, r => [("roomId", some r.roomId)]
  | createRoom, r => [("name", some r.roomName)]
  | updateUserData, r =>
      [ ("password", r.password), ("address", some r.address), ("phoneNumber", some r.phoneNumber)
      , ("avatarColor", some r.avatarColor) ]
  | submitAnswer, _ => []
  | submitVerificationCode, r => [("code", some r.code)]
  | forgotPassword, r => [("email", some r.email)]

/-- A value of the shape yields a request that holds its texts, every other value an error, and
none an exception. -/
structure AcceptsExactly (d : Deserializer) (j : Json) : Prop where
  request : j.fits d.shape = true →
    ∃ r, d.deserialize (some j) = .ok (.ok r) ∧ j.Holds (d.texts r)
  error : j.fits d.shape = false →
    ∃ message, d.deserialize (some j) = .ok (.error ⟨message, .deserializationError⟩)
  neverThrows : ∀ fault, d.deserialize (some j) ≠ .error fault

section Tests

variable {d : Deserializer} {j : Json}

theorem AcceptsExactly.of_error {message : String} (hfits : j.fits d.shape = false)
    (hd : d.deserialize (some j) = .ok (.error (invalid message))) : d.AcceptsExactly j where
  request h := nomatch hfits.symm.trans h
  error _ := ⟨message, hd⟩
  neverThrows _ h := nomatch hd.symm.trans h

theorem AcceptsExactly.of_request {r : d.Request} (hfits : j.fits d.shape = true)
    (hd : d.deserialize (some j) = .ok (.ok r)) (htexts : j.Holds (d.texts r)) :
    d.AcceptsExactly j where
  request _ := ⟨r, hd, htexts⟩
  error h := nomatch hfits.symm.trans h
  neverThrows _ h := nomatch hd.symm.trans h

/-- A deserializer that tests its whole shape accepts exactly that, if its conversions succeed
behind the tests. -/
theorem acceptsExactly_of_tests {missing mistyped : Bool} {missingMessage mistypedMessage : String}
    {converted : Except Fault (Result d.Request)}
    (hd : d.deserialize (some j) =
      if missing then .ok (.error (invalid missingMessage))
      else if mistyped then .ok (.error (invalid mistypedMessage))
      else converted)
    (hmissing : missing = !(d.shape.all fun f => j.contains f.1))
    (hmistyped : mistyped = !(d.shape.all fun f => f.2.admits (j.get f.1)))
    (hconverted : (∀ f ∈ d.shape, f.2.admits (j.get f.1) = true) →
      ∃ r, converted = .ok (.ok r) ∧ j.Holds (d.texts r)) : d.AcceptsExactly j := by
  have hfits : j.fits d.shape = (!missing && !mistyped) := by
    rw [Json.fits_eq d.shape_ne_nil, hmissing, hmistyped, Bool.not_not, Bool.not_not]
  cases missing with
  | true => exact .of_error hfits hd
  | false =>
      cases mistyped with
      | true => exact .of_error hfits hd
      | false =>
          rw [Bool.false_eq, Bool.not_eq_false'] at hmistyped
          obtain ⟨r, hr, htexts⟩ := hconverted (List.all_eq_true.mp hmistyped)
          exact .of_request hfits (hd.trans hr) htexts

end Tests

/-! ### One deserializer after the other -/

theorem login_acceptsExactly (j : Json) : login.AcceptsExactly j := by
  refine acceptsExactly_of_tests rfl ?_ ?_ ?_
  · simp [shape]
  · simp [shape, FieldKind.admits]
  · intro h
    simp only [shape, FieldKind.admits, List.forall_mem_cons, Json.isString_iff] at h
    obtain ⟨⟨username, hu⟩, ⟨password, hp⟩, -⟩ := h
    refine ⟨⟨username, password⟩, ?_, by simp [Json.Holds, texts, hu, hp]⟩
    rw [hu, hp]
    rfl

theorem signup_acceptsExactly (j : Json) : signup.AcceptsExactly j := by
  refine acceptsExactly_of_tests rfl ?_ ?_ ?_
  · simp [shape, Bool.or_assoc]
  · simp [shape, FieldKind.admits, Bool.or_assoc]
  · intro h
    simp only [shape, FieldKind.admits, List.forall_mem_cons, Json.isString_iff] at h
    obtain ⟨⟨username, hu⟩, ⟨password, hp⟩, ⟨email, he⟩, ⟨address, ha⟩, ⟨phoneNumber, hn⟩,
      ⟨birthday, hb⟩, -⟩ := h
    refine ⟨⟨username, password, email, address, phoneNumber, birthday⟩, ?_,
      by simp [Json.Holds, texts, hu, hp, he, ha, hn, hb]⟩
    rw [hu, hp, he, ha, hn, hb]
    rfl

theorem createRoom_acceptsExactly (j : Json) : createRoom.AcceptsExactly j := by
  refine acceptsExactly_of_tests rfl ?_ ?_ ?_
  · simp [shape, Bool.or_assoc]
  · simp [shape, FieldKind.admits, Bool.or_assoc]
  · intro h
    simp only [shape, FieldKind.admits, List.forall_mem_cons, Json.isString_iff,
      Json.isNumberUnsigned_iff] at h
    obtain ⟨⟨roomName, hr⟩, ⟨maxPlayers, hm⟩, ⟨questionCount, hq⟩, ⟨timePerQuestion, ht⟩, -⟩ := h
    refine ⟨⟨roomName, maxPlayers.toUInt32, questionCount.toUInt32, timePerQuestion.toUInt32⟩, ?_,
      by simp [Json.Holds, texts, hr]⟩
    rw [hr, hm, hq, ht]
    rfl

theorem updateUserData_acceptsExactly (j : Json) : updateUserData.AcceptsExactly j := by
  refine acceptsExactly_of_tests rfl ?_ ?_ ?_
  · simp [shape, Bool.or_assoc]
  · simp [shape, FieldKind.admits, Bool.or_assoc]
  · intro h
    simp only [shape, FieldKind.admits, List.forall_mem_cons, Bool.or_eq_true, Json.isString_iff,
      Json.isNull_iff] at h
    obtain ⟨hpassword, ⟨address, ha⟩, ⟨phoneNumber, hn⟩, ⟨avatarColor, hc⟩, -⟩ := h
    rcases hpassword with ⟨password, hp⟩ | hp
    · refine ⟨⟨some password, address, phoneNumber, avatarColor⟩, ?_,
        by simp [Json.Holds, texts, hp, ha, hn, hc]⟩
      rw [hp, ha, hn, hc]
      rfl
    · refine ⟨⟨none, address, phoneNumber, avatarColor⟩, ?_,
        by simp [Json.Holds, texts, hp, ha, hn, hc]⟩
      rw [hp, ha, hn, hc]
      rfl

/-- The requests with a single field, which is a text. -/
theorem acceptsExactly_of_text {d : Deserializer} {j : Json} {key : String}
    {missingMessage mistypedMessage : String} {request : String → d.Request}
    (hd : d.deserialize (some j) =
      if !j.contains key then .ok (.error (invalid missingMessage))
      else if !(j.get key).isString then .ok (.error (invalid mistypedMessage))
      else do
        let text ← (j.get key).toString
        return .ok (request text))
    (hshape : d.shape = [(key, .string)])
    (htexts : ∀ text, d.texts (request text) = [(key, some text)]) : d.AcceptsExactly j := by
  refine acceptsExactly_of_tests hd ?_ ?_ ?_
  · simp [hshape]
  · simp [hshape, FieldKind.admits]
  · intro h
    rw [hshape, List.forall_mem_singleton] at h
    obtain ⟨text, ht⟩ := Json.isString_iff.mp h
    refine ⟨request text, ?_, by simp [Json.Holds, htexts, ht]⟩
    rw [show j.get key = _ from ht]
    rfl

theorem submitVerificationCode_acceptsExactly (j : Json) :
    submitVerificationCode.AcceptsExactly j :=
  acceptsExactly_of_text rfl rfl fun _ => rfl

theorem forgotPassword_acceptsExactly (j : Json) : forgotPassword.AcceptsExactly j :=
  acceptsExactly_of_text rfl rfl fun _ => rfl

/-- The two requests with a room's id wrap the same conversion. -/
theorem deserializeRoomId_bind {α : Type} (request : String → α) (j : Json) :
    (do let r ← deserializeRoomId (some j); return r.map request : Except Fault (Result α)) =
      if !j.contains "roomId" then .ok (.error (invalid "JSON is missing field 'roomId'"))
      else if !(j.get "roomId").isString then
        .ok (.error (invalid "Invalid JSON. 'roomId' is not a uuid string"))
      else do
        let roomId ← (j.get "roomId").toString
        return .ok (request roomId) := by
  rw [deserializeRoomId, parsed]
  split_ifs
  · rfl
  · rfl
  · cases (j.get "roomId").toString <;> rfl

theorem getPlayersInRoom_acceptsExactly (j : Json) : getPlayersInRoom.AcceptsExactly j :=
  acceptsExactly_of_text (deserializeRoomId_bind _ j) rfl fun _ => rfl

theorem joinRoom_acceptsExactly (j : Json) : joinRoom.AcceptsExactly j :=
  acceptsExactly_of_text (deserializeRoomId_bind _ j) rfl fun _ => rfl

/-! ### The comma -/

/-- Where an answer has both fields and its `questionId` is unsigned, so is its `answerId`. -/
def AnswerIdFits (j : Json) : Prop :=
  j.contains "answerId" = true → j.contains "questionId" = true →
    (j.get "questionId").isNumberUnsigned = true → (j.get "answerId").isNumberUnsigned = true

/-- Only the kind of the `questionId` is tested. -/
theorem deserializeSubmitAnswerRequest_eq (j : Json) : deserializeSubmitAnswerRequest (some j) =
    if !j.contains "answerId" || !j.contains "questionId" then
      .ok (.error (invalid "JSON is missing field 'answerId' or 'questionId'"))
    else if !(j.get "questionId").isNumberUnsigned then
      .ok (.error (invalid "Invalid JSON. 'answerId' or 'questionId' is not a number"))
    else do
      let answerId ← (j.get "answerId").toUInt32
      let questionId ← (j.get "questionId").toUInt32
      return .ok { answerId, questionId } := rfl

theorem submitAnswer_acceptsExactly_iff (j : Json) :
    submitAnswer.AcceptsExactly j ↔ AnswerIdFits j := by
  have hfits := Json.fits_eq (j := j) submitAnswer.shape_ne_nil
  have hd : submitAnswer.deserialize (some j) = _ := deserializeSubmitAnswerRequest_eq j
  simp only [shape, List.all_cons, List.all_nil, FieldKind.admits, Bool.and_true] at hfits
  by_cases ha : j.contains "answerId" = true
  · by_cases hq : j.contains "questionId" = true
    · by_cases hkind : (j.get "questionId").isNumberUnsigned = true
      · obtain ⟨n, hn⟩ := Json.isNumberUnsigned_iff.mp hkind
        simp only [ha, hq, hkind, Bool.and_true, Bool.true_and] at hfits
        simp only [ha, hq, hkind, Bool.not_true, Bool.or_self, Bool.false_eq_true, if_false] at hd
        constructor
        · -- a conversion that does not throw still returns a request
          intro h _ _ _
          by_contra hkind'
          obtain ⟨message, herror⟩ := h.error (hfits.trans (Bool.eq_false_iff.mpr hkind'))
          rw [hd, hn] at herror
          cases hanswer : (j.get "answerId").toUInt32 <;> rw [hanswer] at herror <;> cases herror
        · intro h
          have hkind' := h ha hq hkind
          obtain ⟨m, hm⟩ := Json.isNumberUnsigned_iff.mp hkind'
          rw [hm, hn] at hd
          exact .of_request (hfits.trans hkind') hd (List.forall_mem_nil _)
      · have herror := hd.trans ((if_neg (by simp [ha, hq])).trans (if_pos (by simp [hkind])))
        exact iff_of_true (.of_error (hfits.trans (by simp [hkind])) herror)
          fun _ _ h => absurd h hkind
    · have herror := hd.trans (if_pos (by simp [hq]))
      exact iff_of_true (.of_error (hfits.trans (by simp [hq])) herror) fun _ h _ => absurd h hq
  · have herror := hd.trans (if_pos (by simp [ha]))
    exact iff_of_true (.of_error (hfits.trans (by simp [ha])) herror) fun h _ _ => absurd h ha

/-! ### The numbers of a room -/

/-- A conversion keeps the low 32 bits of a number. -/
theorem deserializeCreateRoomRequest_ok {j : Json} {r : CreateRoomRequest}
    (h : deserializeCreateRoomRequest (some j) = .ok (.ok r)) :
    ∃ maxPlayers questionCount timePerQuestion : UInt64,
      j.get "maxPlayers" = .numberUnsigned maxPlayers ∧
      j.get "questionCount" = .numberUnsigned questionCount ∧
      j.get "timePerQuestion" = .numberUnsigned timePerQuestion ∧
      r.maxPlayers = maxPlayers.toUInt32 ∧ r.questionCount = questionCount.toUInt32 ∧
      r.timePerQuestion = timePerQuestion.toUInt32 := by
  have hfits : j.fits createRoom.shape = true := by
    by_contra hnot
    obtain ⟨message, herror⟩ := (createRoom_acceptsExactly j).error (Bool.eq_false_iff.mpr hnot)
    exact nomatch h.symm.trans herror
  rw [Json.fits_eq createRoom.shape_ne_nil, Bool.and_eq_true] at hfits
  obtain ⟨hpresent, hkinds⟩ := hfits
  simp only [shape, FieldKind.admits, List.all_cons, List.all_nil, Bool.and_true,
    Bool.and_eq_true, Json.isString_iff, Json.isNumberUnsigned_iff] at hpresent hkinds
  obtain ⟨⟨roomName, hr⟩, ⟨maxPlayers, hm⟩, ⟨questionCount, hq⟩, ⟨timePerQuestion, ht⟩⟩ := hkinds
  have hr : deserializeCreateRoomRequest (some j) = .ok (.ok ⟨roomName, maxPlayers.toUInt32,
      questionCount.toUInt32, timePerQuestion.toUInt32⟩) := by
    simp only [deserializeCreateRoomRequest, parsed, hpresent, hr, hm, hq, ht, Json.isString,
      Json.isNumberUnsigned, Bool.not_true, Bool.or_self, Bool.false_eq_true, if_false]
    rfl
  cases h.symm.trans hr
  exact ⟨maxPlayers, questionCount, timePerQuestion, hm, hq, ht, rfl, rfl, rfl⟩

end Deserializer

/-- Eight of the nine deserializers accept exactly their shape, and the one of an answer does so
on the values whose `answerId` is unsigned where their `questionId` is. -/
theorem acceptsExactly_iff (d : Deserializer) (j : Json) :
    d.AcceptsExactly j ↔ (d = .submitAnswer → Deserializer.AnswerIdFits j) := by
  cases d with
  | submitAnswer =>
      rw [Deserializer.submitAnswer_acceptsExactly_iff]
      exact ⟨fun h _ => h, fun h => h rfl⟩
  | login => exact iff_of_true (Deserializer.login_acceptsExactly j) nofun
  | signup => exact iff_of_true (Deserializer.signup_acceptsExactly j) nofun
  | getPlayersInRoom => exact iff_of_true (Deserializer.getPlayersInRoom_acceptsExactly j) nofun
  | joinRoom => exact iff_of_true (Deserializer.joinRoom_acceptsExactly j) nofun
  | createRoom => exact iff_of_true (Deserializer.createRoom_acceptsExactly j) nofun
  | updateUserData => exact iff_of_true (Deserializer.updateUserData_acceptsExactly j) nofun
  | submitVerificationCode =>
      exact iff_of_true (Deserializer.submitVerificationCode_acceptsExactly j) nofun
  | forgotPassword => exact iff_of_true (Deserializer.forgotPassword_acceptsExactly j) nofun

/-- An answer whose `answerId` is a text ends the server. -/
theorem not_acceptsExactly_textAnswer : ¬ ∀ (d : Deserializer) (j : Json), d.AcceptsExactly j := by
  intro h
  have haccepts := h .submitAnswer
    (.object [("answerId", .string "0"), ("questionId", .numberUnsigned 0)])
  exact haccepts.neverThrows .jsonType rfl

end TriviaServer
