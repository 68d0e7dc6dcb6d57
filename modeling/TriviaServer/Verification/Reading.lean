import TriviaServer.Verification.Rules

/-! # Code that only reads the accounts and their statistics

Most of the database class reads. These programs write nothing but the pool of questions,
and what they may throw is a condition `E`. -/

namespace TriviaServer

open Interaction Program

variable {E : Fault → Prop}

/-- A read of the tables, a new question, or a call to the world outside other than the mail
of a signup. -/
def Op.Reads (E : Fault → Prop) : Op → Prop
  | .database (.updateUser ..) => False
  | .database (.updateStatistics _) => False
  | .external (.sendEmailVerification ..) => False
  | o => o.Quiet E

theorem Op.Reads.quiet {o : Op} (h : o.Reads E) : o.Quiet E := by
  unfold Op.Reads at h
  split at h
  · exact h.elim
  · exact h.elim
  · exact h.elim
  · exact h

theorem quiet_of_reads {α : Type} {p : Action α} (h : p.Only (Op.Reads E)) :
    p.Only (Op.Quiet E) :=
  h.mono fun _ ho => ho.quiet

/-- A call followed by the rest of the program. -/
theorem only_db_bind {α : Type} {φ : Op → Prop} {o : DbOp} {f : o.Answer → Action α}
    (ho : φ (.database o)) (hf : ∀ r, (f r).Only φ) : (Action.db o >>= f).Only φ :=
  ⟨ho, hf⟩

theorem only_external_bind {α : Type} {φ : Op → Prop} {o : ExternalOp}
    {f : o.Answer → Action α} (ho : φ (.external o)) (hf : ∀ r, (f r).Only φ) :
    (Action.external o >>= f).Only φ :=
  ⟨ho, hf⟩

theorem lift_reads {α : Type} {x : Except Fault α} (h : Ensures E (fun _ => True) x) :
    (Action.lift x).Only (Op.Reads E) := by
  cases x with
  | error e => exact ⟨h, fun r => nomatch r⟩
  | ok a => trivial

/-! ## The deserializers throw nothing but conversion errors -/

section Deserializers

variable (hE : E .jsonType)

include hE

theorem ensures_toString (j : Json) : Ensures E (fun _ => True) j.toString := by
  cases j <;> simp [Json.toString, hE]

theorem ensures_toUInt32 (j : Json) : Ensures E (fun _ => True) j.toUInt32 := by
  cases j <;> simp [Json.toUInt32, hE]

end Deserializers

theorem ensures_bind {α β : Type} {x : Except Fault α} {f : α → Except Fault β}
    (hx : Ensures E (fun _ => True) x) (hf : ∀ a, Ensures E (fun _ => True) (f a)) :
    Ensures E (fun _ => True) (x >>= f) := by
  cases x with
  | error e => exact hx
  | ok a => exact hf a

theorem ensures_parsed {α : Type} {j : Option Json} {f : Json → Except Fault (Result α)}
    (hf : ∀ j, Ensures E (fun _ => True) (f j)) :
    Ensures E (fun _ => True) (JsonDeserializer.parsed j f) := by
  cases j with
  | none => trivial
  | some j => exact hf j

section Deserializers

variable (hE : E .jsonType) (j : Option Json)

include hE

theorem ensures_loginRequest :
    Ensures E (fun _ => True) (JsonDeserializer.deserializeLoginRequest j) := by
  refine ensures_parsed fun j => ?_
  split_ifs
  · trivial
  · trivial
  · exact ensures_bind (ensures_toString hE _) fun _ =>
      ensures_bind (ensures_toString hE _) fun _ => trivial

theorem ensures_signupRequest :
    Ensures E (fun _ => True) (JsonDeserializer.deserializeSignupRequest j) := by
  refine ensures_parsed fun j => ?_
  split_ifs
  · trivial
  · trivial
  · iterate 6 refine ensures_bind (ensures_toString hE _) fun _ => ?_
    trivial

theorem ensures_roomId : Ensures E (fun _ => True) (JsonDeserializer.deserializeRoomId j) := by
  refine ensures_parsed fun j => ?_
  split_ifs
  · trivial
  · trivial
  · exact ensures_bind (ensures_toString hE _) fun _ => trivial

theorem ensures_getPlayersInRoomRequest :
    Ensures E (fun _ => True) (JsonDeserializer.deserializeGetPlayersInRoomRequest j) :=
  ensures_bind (ensures_roomId hE j) fun _ => trivial

theorem ensures_joinRoomRequest :
    Ensures E (fun _ => True) (JsonDeserializer.deserializeJoinRoomRequest j) :=
  ensures_bind (ensures_roomId hE j) fun _ => trivial

theorem ensures_createRoomRequest :
    Ensures E (fun _ => True) (JsonDeserializer.deserializeCreateRoomRequest j) := by
  refine ensures_parsed fun j => ?_
  split_ifs
  · trivial
  · trivial
  · refine ensures_bind (ensures_toString hE _) fun _ => ?_
    iterate 3 refine ensures_bind (ensures_toUInt32 hE _) fun _ => ?_
    trivial

theorem ensures_updateUserDataRequest :
    Ensures E (fun _ => True) (JsonDeserializer.deserializeUpdateUserDataRequest j) := by
  refine ensures_parsed fun j => ?_
  split_ifs with h₁ h₂ h₃
  · trivial
  · trivial
  · refine ensures_bind (x := some <$> _) ?_ fun _ => ?_
    · exact ensures_bind (f := fun a => .ok (some a)) (ensures_toString hE _) fun _ => trivial
    · iterate 3 refine ensures_bind (ensures_toString hE _) fun _ => ?_
      trivial
  · refine ensures_bind (x := pure none) trivial fun _ => ?_
    iterate 3 refine ensures_bind (ensures_toString hE _) fun _ => ?_
    trivial

theorem ensures_submitAnswerRequest :
    Ensures E (fun _ => True) (JsonDeserializer.deserializeSubmitAnswerRequest j) := by
  refine ensures_parsed fun j => ?_
  split_ifs
  · trivial
  · trivial
  · exact ensures_bind (ensures_toUInt32 hE _) fun _ =>
      ensures_bind (ensures_toUInt32 hE _) fun _ => trivial

theorem ensures_submitVerificationCodeRequest :
    Ensures E (fun _ => True) (JsonDeserializer.deserializeSubmitVerificationCodeRequest j) := by
  refine ensures_parsed fun j => ?_
  split_ifs
  · trivial
  · trivial
  · exact ensures_bind (ensures_toString hE _) fun _ => trivial

theorem ensures_forgotPasswordRequest :
    Ensures E (fun _ => True) (JsonDeserializer.deserializeForgotPasswordRequest j) := by
  refine ensures_parsed fun j => ?_
  split_ifs
  · trivial
  · trivial
  · exact ensures_bind (ensures_toString hE _) fun _ => trivial

end Deserializers

/-! ## The reading methods of the database class -/

namespace SqliteDatabase

theorem doesUserExist_reads (username : String) : (doesUserExist username).Only (Op.Reads E) :=
  only_db_bind trivial fun _ => trivial

theorem getUser_reads (username : String) : (getUser username).Only (Op.Reads E) := by
  refine only_db_bind trivial fun users => ?_
  rcases users with _ | _ | ⟨user, rest⟩ <;> trivial

theorem doesPasswordMatch_reads (userName password : String) :
    (doesPasswordMatch userName password).Only (Op.Reads E) := by
  refine (getUser_reads userName).bind fun user => ?_
  cases user <;> trivial

theorem doesEmailExist_reads (email : String) : (doesEmailExist email).Only (Op.Reads E) :=
  only_db_bind trivial fun _ => trivial

theorem getQuestionsCount_reads : getQuestionsCount.Only (Op.Reads E) :=
  only_db_bind trivial fun _ => trivial

theorem addQuestion_reads (question : QuestionDb) : (addQuestion question).Only (Op.Reads E) := by
  refine only_db_bind trivial fun r => ?_
  cases r <;> trivial

theorem addQuestions_reads (questions : List QuestionDb) :
    (addQuestions questions).Only (Op.Reads E) := by
  induction questions with
  | nil => trivial
  | cons question rest ih => exact (addQuestion_reads question).bind fun _ => ih

theorem pickQuestions_reads (amount : UInt32) : (pickQuestions amount).Only (Op.Reads E) := by
  refine only_db_bind trivial fun questions => ?_
  cases questions with
  | none => trivial
  | some questions =>
      dsimp only
      split_ifs <;> trivial

theorem getQuestions_reads (amount : UInt32) : (getQuestions amount).Only (Op.Reads E) := by
  refine getQuestionsCount_reads.bind fun count => ?_
  cases count with
  | error e => trivial
  | ok questionsCount =>
      dsimp only
      split_ifs
      · exact pickQuestions_reads amount
      · refine only_external_bind trivial fun fetched => ?_
        cases fetched with
        | error e => trivial
        | ok questions =>
            exact (addQuestions_reads questions).bind fun _ => pickQuestions_reads amount

theorem getHighScores_reads : getHighScores.Only (Op.Reads E) :=
  only_db_bind trivial fun _ => trivial

theorem getUserData_reads (username : String) : (getUserData username).Only (Op.Reads E) := by
  refine only_db_bind trivial fun users => ?_
  rcases users with _ | _ | ⟨user, _ | _⟩ <;> trivial

theorem getPlayerByName_reads (username : String) :
    (getPlayerByName username).Only (Op.Reads E) := by
  refine (getUser_reads username).bind fun user => ?_
  cases user with
  | error e => trivial
  | ok user =>
      refine only_db_bind trivial fun players => ?_
      rcases players with _ | _ | ⟨player, rest⟩ <;> trivial

theorem getUserStatistics_reads (username : String) :
    (getUserStatistics username).Only (Op.Reads E) := by
  refine only_db_bind trivial fun rows => ?_
  rcases rows with _ | _ | ⟨row, rest⟩ <;> trivial

theorem getUserPasswordByEmail_reads (email : String) :
    (getUserPasswordByEmail email).Only (Op.Reads E) := by
  refine only_db_bind trivial fun users => ?_
  rcases users with _ | _ | ⟨user, rest⟩ <;> trivial

end SqliteDatabase

/-! ## The reading methods of the managers -/

theorem LoginManager.forgotPassword_reads (email : String) :
    (LoginManager.forgotPassword email).Only (Op.Reads E) := by
  refine (SqliteDatabase.getUserPasswordByEmail_reads email).bind fun password => ?_
  cases password with
  | error e => trivial
  | ok password =>
      refine only_external_bind trivial fun sent => ?_
      cases sent <;> trivial

theorem GameManager.toQuestions_reads (questions : List QuestionDb) :
    (GameManager.toQuestions questions).Only (Op.Reads E) := by
  induction questions with
  | nil => trivial
  | cons question rest ih => exact only_external_bind trivial fun _ => ih.bind fun _ => trivial

theorem UsersManager.transformLoggedUsersToPlayers_reads (users : List LoggedUser) :
    (UsersManager.transformLoggedUsersToPlayers users).Only (Op.Reads E) := by
  induction users with
  | nil => trivial
  | cons user rest ih =>
      refine (SqliteDatabase.getPlayerByName_reads user.username).bind fun player => ?_
      cases player with
      | error e => trivial
      | ok player =>
          refine ih.bind fun players => ?_
          cases players <;> trivial

theorem StatisticsManager.getUserStatistics_reads (username : String) :
    (StatisticsManager.getUserStatistics username).Only (Op.Reads E) := by
  refine (SqliteDatabase.getUserStatistics_reads username).bind fun res => ?_
  cases res <;> trivial

end TriviaServer
