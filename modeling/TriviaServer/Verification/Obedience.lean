import TriviaServer.Verification.Departure
import TriviaServer.Verification.Standing

/-! # Every request keeps to the discipline

Most operations leave the standing alone. The others occur in the login, the signup, the
verification, the update of the user's data, and the logouts. -/

namespace TriviaServer

open Interaction
open Program (Only OnlyThen)

variable {P : Platform} {d : Bool}

/-! ## Operations that leave the standing alone -/

def Op.Ordinary : Op → Prop
  | .login _ => False
  | .database (.insertUser _) => False
  | .database (.removeUser _) => False
  | .database (.updateUser ..) => False
  | .external (.sendEmailVerification ..) => False
  | _ => True

theorem Op.Ordinary.called {o : Op} (ho : o.Ordinary) (st : Standing) (r : o.Answer) :
    st.called ⟨o, r⟩ = st := by
  cases o with
  | login o => exact ho.elim
  | room o => rfl
  | game o => rfl
  | database o =>
      cases o with
      | insertUser | removeUser | updateUser => exact ho.elim
      | _ => rfl
  | external o =>
      cases o with
      | sendEmailVerification => exact ho.elim
      | _ => rfl

theorem Op.Ordinary.neutral {o : Op} (ho : o.Ordinary) : (connections P d).Neutral o := by
  refine fun st => ⟨?_, ho.called st⟩
  cases o with
  | login o => exact ho.elim
  | room o => trivial
  | game o => trivial
  | database o =>
      cases o with
      | insertUser | removeUser | updateUser => exact ho.elim
      | _ => trivial
  | external o => trivial

theorem Op.Leaving.ordinary {g : String} {o : Op} (ho : o.Leaving g) : o.Ordinary := by
  cases o with
  | login o => exact ho.elim
  | room o => trivial
  | game o => trivial
  | database o =>
      cases o with
      | insertUser | removeUser | updateUser => exact ho.elim
      | _ => trivial
  | external o =>
      cases o with
      | sendEmailVerification => exact ho.elim
      | _ => trivial

theorem ordinary_of_reads {α : Type} {p : Action α} (h : p.Only (Op.Reads fun _ => True)) :
    p.Only Op.Ordinary :=
  (leaving_of_reads (g := "") h).mono fun _ ho => ho.ordinary

theorem wp_ordinary {α : Type} {p : Action α} {ψ : α → Prop} (hp : p.OnlyThen Op.Ordinary ψ)
    {st : Standing} {Q : List (Event operations) → α → Standing → Prop}
    (h : ∀ t a, ψ a → Q t a st) : wp (connections P d).machine (fun _ => False) p Q st :=
  Discipline.wp_neutral (hp.imp fun _ ho => ho.neutral) h

theorem wp_ordinary_call {α : Type} {p : Action α} (hp : p.Only Op.Ordinary) {st : Standing}
    {Q : List (Event operations) → α → Standing → Prop} (h : ∀ t a, Q t a st) :
    wp (connections P d).machine (fun _ => False) p Q st :=
  wp_ordinary hp.then_true fun t a _ => h t a

theorem ordinary_lift {α : Type} {x : Except Fault α} : (Action.lift x).Only Op.Ordinary := by
  cases x with
  | error e => exact ⟨trivial, fun r => nomatch r⟩
  | ok a => trivial

/-! ## Programs of a logged user -/

/-- Only ordinary operations, and the handler that comes next is one of the same user. -/
def Plays (user : LoggedUser) (p : Action RequestResult) : Prop :=
  p.OnlyThen Op.Ordinary fun r => r.handler.player = some user

theorem plays_pure {user : LoggedUser} {r : RequestResult}
    (h : r.handler.player = some user) : Plays user (pure r) := h

theorem plays_bind {α : Type} {user : LoggedUser} {p : Action α} {f : α → Action RequestResult}
    (hp : p.Only Op.Ordinary) (hf : ∀ a, Plays user (f a)) : Plays user (p >>= f) :=
  OnlyThen.bind hp hf

theorem plays_reads {α : Type} {user : LoggedUser} {p : Action α}
    {f : α → Action RequestResult} (hp : p.Only (Op.Reads fun _ => True))
    (hf : ∀ a, Plays user (f a)) : Plays user (p >>= f) :=
  plays_bind (ordinary_of_reads hp) hf

theorem plays_lift {α : Type} {user : LoggedUser} {x : Except Fault α}
    {f : α → Action RequestResult} (hf : ∀ a, Plays user (f a)) :
    Plays user (Action.lift x >>= f) :=
  plays_bind ordinary_lift hf

theorem plays_room {user : LoggedUser} {o : RoomOp} {f : o.Answer → Action RequestResult}
    (hf : ∀ a, Plays user (f a)) : Plays user (Action.room o >>= f) :=
  ⟨trivial, hf⟩

theorem plays_game {user : LoggedUser} {o : GameOp} {f : o.Answer → Action RequestResult}
    (hf : ∀ a, Plays user (f a)) : Plays user (Action.game o >>= f) :=
  ⟨trivial, hf⟩

theorem plays_throw {user : LoggedUser} (fault : Fault) : Plays user (Action.throw fault) :=
  ⟨trivial, fun r => nomatch r⟩

theorem ordinary_room (o : RoomOp) : (Action.room o).Only Op.Ordinary :=
  ⟨trivial, fun _ => trivial⟩

theorem ordinary_game (o : GameOp) : (Action.game o).Only Op.Ordinary :=
  ⟨trivial, fun _ => trivial⟩

theorem ordinary_getRoom (roomUUID : String) : (RoomManager.getRoom roomUUID).Only Op.Ordinary := by
  refine ⟨trivial, fun found => ?_⟩
  cases found <;> trivial

theorem ordinary_getGameById (id : String) :
    (GameManager.getGameById id).Only Op.Ordinary :=
  ⟨trivial, fun _ => trivial⟩

theorem ordinary_removePlayerFromGame (g : String) (user : LoggedUser) :
    (GameManager.removePlayerFromGame g user).Only Op.Ordinary :=
  (GameManager.leaving_removePlayerFromGame user).mono fun _ ho => ho.ordinary

theorem ordinary_createGame (room : String) :
    (GameManager.createGame room).Only Op.Ordinary := by
  refine (ordinary_room _).bind fun metadata => ?_
  refine (ordinary_of_reads (SqliteDatabase.getQuestions_reads _)).bind fun questions => ?_
  cases questions with
  | error e => trivial
  | ok questions =>
      refine (ordinary_room _).bind fun metadata => ?_
      split_ifs
      · trivial
      · exact (ordinary_of_reads (GameManager.toQuestions_reads _)).bind fun _ =>
          (ordinary_room _).bind fun _ => (ordinary_room _).bind fun _ =>
          (ordinary_game _).bind fun _ => trivial

namespace MenuRequestHandler

variable (user : LoggedUser)

theorem roomsResponse_ordinary (rooms : List RoomData) :
    (roomsResponse rooms).Only Op.Ordinary := by
  induction rooms with
  | nil => trivial
  | cons room rest ih =>
      refine (ordinary_getRoom room.uuid).bind fun found => ?_
      cases found with
      | error e => exact ih
      | ok r =>
          refine (ordinary_room _).bind fun users => ?_
          refine (ordinary_of_reads
            (UsersManager.transformLoggedUsersToPlayers_reads users)).bind fun players => ?_
          cases players with
          | error e => exact ih
          | ok players =>
              refine Only.bind ?_ fun finished => ih.bind fun _ => trivial
              unfold isRoomFinished
              split_ifs
              · exact (ordinary_getGameById _).bind fun _ => ordinary_game _
              · trivial

theorem getRooms_plays : Plays user (getRooms user) :=
  plays_bind (ordinary_room _) fun rooms => plays_bind (roomsResponse_ordinary rooms)
    fun _ => plays_pure rfl

theorem getPlayersInRoom_plays (request : RequestInfo) :
    Plays user (getPlayersInRoom P user request) := by
  refine plays_lift fun request => ?_
  cases request with
  | error e => exact plays_pure rfl
  | ok request =>
      refine plays_bind (ordinary_getRoom _) fun room => ?_
      cases room with
      | error e => exact plays_pure rfl
      | ok room =>
          refine plays_room fun users => plays_reads
            (UsersManager.transformLoggedUsersToPlayers_reads users) fun players => ?_
          cases players <;> exact plays_pure rfl

theorem getPersonalStatistics_plays : Plays user (getPersonalStatistics user) := by
  refine plays_reads (StatisticsManager.getUserStatistics_reads _) fun stats => ?_
  cases stats <;> exact plays_pure rfl

theorem getHighScores_plays : Plays user (getHighScores user) := by
  refine plays_reads SqliteDatabase.getHighScores_reads fun scores => ?_
  cases scores <;> exact plays_pure rfl

theorem joinRoom_plays (request : RequestInfo) : Plays user (joinRoom P user request) := by
  refine plays_lift fun request => ?_
  cases request with
  | error e => exact plays_pure rfl
  | ok request =>
      refine plays_bind (ordinary_getRoom _) fun room => ?_
      cases room with
      | error e => exact plays_pure rfl
      | ok room =>
          refine plays_room fun added => ?_
          cases added with
          | none => exact plays_room fun _ => plays_pure rfl
          | some e => exact plays_pure rfl

theorem createRoom_plays (request : RequestInfo) : Plays user (createRoom P user request) := by
  refine plays_lift fun request => ?_
  cases request with
  | error e => exact plays_pure rfl
  | ok request =>
      dsimp only
      split_ifs
      · exact plays_pure rfl
      · exact plays_room fun uuid => plays_room fun _ => plays_pure rfl

theorem getUserData_plays : Plays user (getUserData user) := by
  refine plays_reads (SqliteDatabase.getUserData_reads _) fun userData => ?_
  cases userData with
  | error e => exact plays_pure rfl
  | ok userData =>
      refine plays_reads (StatisticsManager.getUserStatistics_reads _) fun stats => ?_
      cases stats <;> exact plays_pure rfl

end MenuRequestHandler

namespace RoomMemberRequestHandler

variable (roomUuid roomName : String) (user : LoggedUser)

theorem leaveRoom_plays : Plays user (leaveRoom roomUuid roomName user) := by
  refine plays_room (o := .getRoomState roomUuid) fun roomState => ?_
  cases roomState with
  | none => exact plays_pure rfl
  | some roomState =>
      dsimp only
      split_ifs
      · exact plays_bind ((ordinary_getGameById _).bind fun _ =>
          ordinary_removePlayerFromGame _ user) fun _ => plays_room fun _ => plays_pure rfl
      · exact plays_room fun _ => plays_pure rfl

theorem getRoomState_plays : Plays user (getRoomState roomUuid roomName user) := by
  refine plays_room (o := .getRoomState roomUuid) fun roomState => ?_
  cases roomState with
  | none => exact plays_pure rfl
  | some roomState =>
      refine plays_reads (UsersManager.transformLoggedUsersToPlayers_reads _) fun players => ?_
      cases players with
      | error e => exact plays_pure rfl
      | ok players =>
          dsimp only
          split_ifs
          · exact plays_bind (ordinary_getGameById _) fun _ => plays_pure rfl
          · exact plays_pure rfl

end RoomMemberRequestHandler

namespace RoomAdminRequestHandler

variable (room : String) (user : LoggedUser)

theorem closeRoom_plays : Plays user (closeRoom room user) :=
  plays_room fun _ => plays_bind (ordinary_room _) fun _ => plays_pure rfl

theorem startGame_plays : Plays user (startGame room user) := by
  refine plays_room fun users => ?_
  split_ifs
  · exact plays_pure rfl
  · refine plays_bind (ordinary_createGame room) fun game => ?_
    cases game with
    | error e => exact plays_pure rfl
    | ok game => exact plays_room fun _ => plays_pure rfl

theorem getRoomState_plays : Plays user (getRoomState room user) := by
  refine plays_room fun metadata => plays_room (o := .getRoomState metadata.uuid)
    fun roomState => plays_room fun users => plays_reads
    (UsersManager.transformLoggedUsersToPlayers_reads users) fun players => ?_
  cases players with
  | error e => exact plays_pure rfl
  | ok players =>
      cases roomState with
      | none => exact plays_throw _
      | some roomState => exact plays_pure rfl

end RoomAdminRequestHandler

namespace GameRequestHandler

variable (game : String) (user : LoggedUser)

theorem getQuestion_plays : Plays user (getQuestion game user) := by
  refine plays_game fun finished => ?_
  cases finished with
  | true => exact plays_pure rfl
  | false => exact plays_game fun _ => plays_pure rfl

theorem submitAnswer_plays (request : RequestInfo) :
    Plays user (submitAnswer P game user request) := by
  refine plays_lift fun request => ?_
  cases request with
  | error e => exact plays_pure rfl
  | ok request =>
      refine plays_game fun finished => ?_
      cases finished with
      | true => exact plays_pure rfl
      | false =>
          refine plays_game fun checked => ?_
          cases checked with
          | error e => exact plays_pure rfl
          | ok answer => exact plays_game fun _ => plays_game fun _ => plays_pure rfl

theorem getGameResults_plays : Plays user (getGameResults game user) := by
  refine plays_game fun finished => ?_
  cases finished with
  | false => exact plays_pure rfl
  | true =>
      refine plays_game fun usersMap => plays_game fun online => plays_reads
        (UsersManager.transformLoggedUsersToPlayers_reads _) fun players => ?_
      cases players with
      | error e => exact plays_pure rfl
      | ok players =>
          refine plays_lift fun results => ?_
          split
          · exact plays_throw _
          · exact plays_pure rfl

theorem leaveGame_plays : Plays user (leaveGame game user) := by
  refine plays_game fun _ => plays_bind (ordinary_removePlayerFromGame game user)
    fun submitResult => ?_
  cases submitResult with
  | none =>
      exact plays_bind (RoomManager.removePlayerFromRoom_only trivial trivial trivial)
        fun _ => plays_pure rfl
  | some e => exact plays_pure rfl

end GameRequestHandler

/-! ## Requests that change the standing -/

/-- What is to be shown of a request: where it leaves the connection. -/
def Served (P : Platform) (d : Bool) (session : Session) (request : RequestInfo)
    (r : RequestResult) (st : Standing) : Prop :=
  (connections P d).Post (handleClient P) (fun session => session.handler.Stands)
    (fun st => st = .out) session request r st

theorem served_next {session : Session} {request : RequestInfo} {r : RequestResult}
    {st : Standing} (hexit : request.requestId ≠ .exit)
    (hinserted : d = true → ∀ account, st ≠ .inserted account)
    (h : r.handler.Stands (st.finished P request)) : Served P d session request r st := by
  refine ⟨hinserted, fun sent => ?_⟩
  simp only [handleClient, hexit, if_false]
  cases sent
  · exact h
  · exact h

theorem served_exit {session : Session} {request : RequestInfo} {r : RequestResult}
    (hexit : request.requestId = .exit) : Served P d session request r .out := by
  refine ⟨fun _ _ => Standing.noConfusion, fun sent => ?_⟩
  simp only [handleClient, hexit, if_true]
  rfl

/-- A request that is over while no name is held. -/
theorem served_out {session : Session} {request : RequestInfo} {r : RequestResult}
    (h : r.handler = .login) : Served P d session request r .out := by
  by_cases hexit : request.requestId = .exit
  · exact served_exit hexit
  · exact served_next hexit (fun _ _ => Standing.noConfusion) (h ▸ rfl)

theorem served_plays {session : Session} {request : RequestInfo} {user : LoggedUser}
    {p : Action RequestResult} (hp : Plays user p) (hexit : request.requestId ≠ .exit) :
    wp (connections P d).machine (fun _ => False) p (fun _ r st => Served P d session request r st)
      (.member user.username) :=
  wp_ordinary hp fun _ _ hr => served_next hexit (fun _ _ => Standing.noConfusion)
    (Handler.stands_of_player hr)

theorem wp_logout {name : String} {st : Standing}
    {Q : List (Event operations) → Unit → Standing → Prop} (hst : st.held = some name)
    (hd : d = true → ∀ id mailed, st ≠ .entered id name mailed) (h : ∀ t, Q t () .out) :
    wp (connections P d).machine (fun _ => False) (LoginManager.logout name) Q st := by
  refine Discipline.wp_call (D := connections P d) ⟨hst, hd⟩ fun r _ => ?_
  have hout : (connections P d).observe st (.called ⟨.login (.logout name), r⟩) = .out := by
    simp only [connections, Standing.observe, Standing.called, hst, if_true]
  rw [hout]
  exact h _

/-- Every exit of a logged user logs out first. -/
theorem served_exits {session : Session} {request : RequestInfo} {user : LoggedUser}
    {p : Action RequestResult} (hp : Plays user p) (hexit : request.requestId = .exit) :
    wp (connections P d).machine (fun _ => False)
      (LoginManager.logout user.username >>= fun _ => p)
      (fun _ r st => Served P d session request r st) (.member user.username) := by
  rw [wp_bind]
  exact wp_logout rfl (fun _ _ _ => Standing.noConfusion) fun _ =>
    wp_ordinary hp fun _ _ _ => served_exit hexit

theorem wp_tryLogin_out {name : String} {Q : List (Event operations) → Bool → Standing → Prop}
    (hentered : ∀ t, Q t true (.member name)) (htaken : ∀ t, Q t false .out) :
    wp (connections P d).machine (fun _ => False) (Action.login (.tryLogin name)) Q .out := by
  refine Discipline.wp_call (D := connections P d) (.inl rfl) fun r _ => ?_
  cases r with
  | true => exact hentered _
  | false => exact htaken _

theorem wp_tryLogin_inserted {account : User}
    {Q : List (Event operations) → Bool → Standing → Prop}
    (hentered : ∀ t, Q t true (.entered account.id account.username none))
    (htaken : ∀ t, Q t false .out) :
    wp (connections P d).machine (fun _ => False) (Action.login (.tryLogin account.username)) Q
      (.inserted account) := by
  refine Discipline.wp_call (D := connections P d) (.inr ⟨account, rfl, rfl⟩) fun r _ => ?_
  cases r with
  | true => exact hentered _
  | false => exact htaken _

/-- The removal finds the connection's own account. It can only be skipped where database
calls may fail. -/
theorem wp_removeUnverifiedUser {id : ℕ} {name : String} {mailed : Option String}
    {Q : List (Event operations) → Unit → Standing → Prop}
    (hremoved : ∀ t, Q t () (.leaving name))
    (hskipped : d = false → ∀ t, Q t () (.entered id name mailed)) :
    wp (connections P d).machine (fun _ => False) (UsersManager.removeUserUnverifiedUser name) Q
      (.entered id name mailed) := by
  unfold UsersManager.removeUserUnverifiedUser SqliteDatabase.removeUser SqliteDatabase.getUser
  simp only [wp_bind]
  refine Discipline.wp_call (D := connections P d) trivial fun users husers => ?_
  have hnone : (∀ user rest, users ≠ some (user :: rest)) → d = false := by
    intro hno
    refine Bool.eq_false_iff.mpr fun hd => ?_
    obtain ⟨user, rest, huser⟩ := (husers.2 hd).2 id mailed rfl
    exact hno user rest huser
  rcases users with _ | _ | ⟨user, rest⟩
  · exact hskipped (hnone fun _ _ => by simp) _
  · exact hskipped (hnone fun _ _ => by simp) _
  · have hid : user.id = id := husers.1 user rest rfl id rfl
    simp only [wp_pure, wp_bind]
    have hown : Standing.entered id name mailed = .entered user.id name mailed := by rw [hid]
    refine Discipline.wp_call (D := connections P d) ⟨name, mailed, hown⟩ fun removed hr => ?_
    cases removed with
    | some u => exact hremoved _
    | none =>
        refine hskipped (Bool.eq_false_iff.mpr fun hd => ?_) _
        cases hr hd

/-- The abort of a signup lets the name go. -/
theorem wp_abort {id : ℕ} {name : String} {mailed : Option String} {α : Type} {p : Action α}
    {Q : List (Event operations) → α → Standing → Prop}
    (h : ∀ t, wp (connections P d).machine (fun _ => False) p (fun t' => Q (t ++ t')) .out) :
    wp (connections P d).machine (fun _ => False)
      (UsersManager.removeUserUnverifiedUser name >>= fun _ =>
        LoginManager.logout name >>= fun _ => p) Q (.entered id name mailed) := by
  rw [wp_bind]
  refine wp_removeUnverifiedUser (fun t => ?_) fun hd t => ?_
  all_goals rw [wp_bind]
  · refine wp_logout rfl (fun _ _ _ => Standing.noConfusion) fun t' => ?_
    simpa only [List.append_assoc] using h (t ++ t')
  · refine wp_logout rfl (fun hd' => ?_) fun t' => ?_
    · rw [hd] at hd'
      cases hd'
    · simpa only [List.append_assoc] using h (t ++ t')

/-! ### Verification -/

section Verification

variable (tries : UInt32) (email code username : String) {session : Session}
variable (request : RequestInfo) (id : ℕ)

theorem stands_verification {tries' : UInt32} {email' code' name : String} :
    (Handler.verification tries' email' code' name).Stands (.entered id name (some code')) :=
  ⟨id, rfl⟩

/-- A request that leaves the code unsubmitted. -/
theorem served_waiting {r : RequestResult} (hexit : request.requestId ≠ .exit)
    (hcode : submittedCode P request ≠ some code) {tries' : UInt32} {email' : String}
    (hr : r.handler = .verification tries' email' code username) :
    Served P d session request r (.entered id username (some code)) := by
  refine served_next hexit (fun _ _ => Standing.noConfusion) ?_
  rw [hr]
  simpa only [Standing.finished, hcode, if_false] using stands_verification id

theorem served_submitVerificationCode
    (hid : request.requestId = .submitVerificationCodeRequest) :
    wp (connections P d).machine (fun _ => False)
      (VerificationRequestHandler.submitVerificationCode P tries email code username request)
      (fun _ r st => Served P d session request r st) (.entered id username (some code)) := by
  have hexit : request.requestId ≠ .exit := by simp [hid]
  unfold VerificationRequestHandler.submitVerificationCode
  rw [wp_bind]
  cases hparsed : JsonDeserializer.deserializeSubmitVerificationCodeRequest
      (P.parse request.buffer) with
  | error e => exact ⟨fun _ hf => hf trivial, fun r => nomatch r⟩
  | ok parsed =>
      cases parsed with
      | error e =>
          have hnone : submittedCode P request ≠ some code := by simp [submittedCode, hparsed]
          exact served_waiting code username request id hexit hnone rfl
      | ok requestJson =>
          have hsubmitted : submittedCode P request = some requestJson.code := by
            simp [submittedCode, hid, hparsed]
          simp only [Action.lift, wp_pure]
          split_ifs with hcode htries
          · refine served_next hexit (fun _ _ => Standing.noConfusion) ?_
            simp only [Standing.finished, hsubmitted, hcode, if_true]
            rfl
          · exact wp_abort fun _ => served_out rfl
          · refine served_waiting code username request id hexit ?_ rfl
            rw [hsubmitted]
            exact fun h => hcode (Option.some.inj h)

theorem served_resendVerificationCode
    (hid : request.requestId = .resendVerificationCodeRequest) :
    wp (connections P d).machine (fun _ => False)
      (VerificationRequestHandler.resendVerificationCode tries email code username)
      (fun _ r st => Served P d session request r st) (.entered id username (some code)) := by
  have hexit : request.requestId ≠ .exit := by simp [hid]
  have hnone : ∀ c, submittedCode P request ≠ some c := by simp [submittedCode, hid]
  unfold VerificationRequestHandler.resendVerificationCode
  rw [wp_bind]
  refine Discipline.wp_call (D := connections P d) trivial fun code' _ => ?_
  rw [wp_bind]
  refine Discipline.wp_call (D := connections P d) trivial fun sent _ => ?_
  cases sent with
  | none => exact served_waiting code' username request id hexit (hnone code') rfl
  | some e => exact served_waiting code username request id hexit (hnone code) rfl

theorem served_verification :
    wp (connections P d).machine (fun _ => False)
      (VerificationRequestHandler.handleRequest P tries email code username request)
      (fun _ r st => Served P d session request r st) (.entered id username (some code)) := by
  unfold VerificationRequestHandler.handleRequest
  dsimp only
  split_ifs with hrelevant
  · refine served_waiting code username request id ?_ ?_ rfl
    · rintro hid
      simp [VerificationRequestHandler.isRequestRelevant, hid] at hrelevant
    · have hid : request.requestId ≠ .submitVerificationCodeRequest := by
        rintro hid
        simp [VerificationRequestHandler.isRequestRelevant, hid] at hrelevant
      simp [submittedCode, hid]
  · split
    · next hid => exact served_submitVerificationCode tries email code username request id hid
    · next hid => exact served_resendVerificationCode tries email code username request id hid
    · next hid => exact wp_abort fun _ => served_exit hid
    · next hsubmit hresend hexit =>
        have hid : request.requestId ≠ .submitVerificationCodeRequest := hsubmit
        have hnone : submittedCode P request ≠ some code := by simp [submittedCode, hid]
        exact served_waiting code username request id hexit hnone rfl

end Verification

/-! ### Login and signup -/

theorem wp_reads {α : Type} {p : Action α} (hp : p.Only (Op.Reads fun _ => True))
    {st : Standing} {Q : List (Event operations) → α → Standing → Prop} (h : ∀ t a, Q t a st) :
    wp (connections P d).machine (fun _ => False) p Q st :=
  wp_ordinary_call (ordinary_of_reads hp) h

section Login

variable {session : Session} (request : RequestInfo)

theorem served_login (hid : request.requestId = .loginRequest) :
    wp (connections P d).machine (fun _ => False) (LoginRequestHandler.login P request)
      (fun _ r st => Served P d session request r st) .out := by
  have hexit : request.requestId ≠ .exit := by simp [hid]
  unfold LoginRequestHandler.login LoginManager.login
  rw [wp_bind]
  refine wp_ordinary_call ordinary_lift fun t parsed => ?_
  cases parsed with
  | error e => exact served_out rfl
  | ok login =>
      simp only [wp_bind]
      refine wp_reads (SqliteDatabase.doesUserExist_reads _) fun _ exist => ?_
      rcases exist with e | _ | _
      · exact served_out rfl
      · exact served_out rfl
      simp only [wp_bind]
      refine wp_reads (SqliteDatabase.doesPasswordMatch_reads _ _) fun _ passwordMatch => ?_
      rcases passwordMatch with e | _ | _
      · exact served_out rfl
      · exact served_out rfl
      simp only [wp_bind]
      refine wp_tryLogin_out (fun _ => ?_) fun _ => served_out rfl
      exact served_next hexit (fun _ _ => Standing.noConfusion) rfl

/-- The insert is the last call of `addUser`, and the only one that changes the standing. -/
theorem wp_addUser_out (userName password email address phoneNumber birthday : String)
    (color : AvatarColor) {Q : List (Event operations) → Option Error → Standing → Prop}
    (hnone : ∀ t e, Q t (some e) .out)
    (hinserted : ∀ t account, account.username = userName → account.password = password →
      Q t none (.inserted account)) :
    wp (connections P d).machine (fun _ => False)
      (SqliteDatabase.addUser userName password email address phoneNumber birthday color)
      Q .out := by
  unfold SqliteDatabase.addUser
  simp only [wp_bind]
  refine wp_ordinary_call (p := Action.external .time) ⟨trivial, fun _ => trivial⟩ fun _ time => ?_
  refine wp_reads (SqliteDatabase.doesUserExist_reads _) fun _ exist => ?_
  rcases exist with e | _ | _
  · exact hnone _ _
  · simp only [wp_bind]
    refine wp_reads (SqliteDatabase.doesEmailExist_reads _) fun _ emailExist => ?_
    rcases emailExist with e | _ | _
    · exact hnone _ _
    · simp only [wp_bind]
      refine Discipline.wp_call (D := connections P d) rfl fun inserted _ => ?_
      cases inserted with
      | none => exact hnone _ _
      | some id => exact hinserted _ _ rfl rfl
    · exact hnone _ _
  · exact hnone _ _

/-- Behind the insert the login finds the account; where no call fails it reaches the list. -/
theorem wp_login_account {account : User}
    {Q : List (Event operations) → Result (Bool × String) → Standing → Prop}
    (hentered : ∀ t m, Q t (.ok (true, m)) (.entered account.id account.username none))
    (htaken : ∀ t m, Q t (.ok (false, m)) .out)
    (hfailed : d = false → ∀ t x, (∀ m, x ≠ .ok (true, m)) → Q t x (.inserted account)) :
    wp (connections P d).machine (fun _ => False)
      (LoginManager.login account.username account.password) Q (.inserted account) := by
  unfold LoginManager.login SqliteDatabase.doesUserExist SqliteDatabase.doesPasswordMatch
    SqliteDatabase.getUser
  simp only [wp_bind]
  have hfail : ∀ t x, (∀ m, x ≠ .ok (true, m)) → (d = true → False) → Q t x (.inserted account) :=
    fun t x hx hd => hfailed (Bool.eq_false_iff.mpr hd) t x hx
  refine Discipline.wp_call (D := connections P d) trivial fun ids hids => ?_
  have hids' : d = true → ids = some [account.id] := fun hd => hids hd account rfl rfl
  rcases ids with _ | _ | ⟨id, rest⟩
  · exact hfail _ _ (by simp) fun hd => by cases hids' hd
  · exact hfail _ _ (by simp) fun hd => by cases hids' hd
  simp only [catchWith, Except.map, List.isEmpty_cons, Bool.not_false, wp_pure, wp_bind]
  refine Discipline.wp_call (D := connections P d) trivial fun users husers => ?_
  have husers' : d = true → users = some [account] := fun hd => (husers.2 hd).1 account rfl rfl
  rcases users with _ | _ | ⟨user, rest'⟩
  · exact hfail _ _ (by simp) fun hd => by cases husers' hd
  · exact hfail _ _ (by simp) fun hd => by cases husers' hd
  simp only [wp_pure]
  by_cases hpassword : user.password = account.password
  · simp only [hpassword, decide_true, wp_bind]
    exact wp_tryLogin_inserted (fun _ => hentered _ _) fun _ => htaken _ _
  · simp only [hpassword, decide_false, wp_pure]
    refine hfail _ _ (by simp) fun hd => hpassword ?_
    cases husers' hd
    rfl

theorem served_signup (hid : request.requestId = .signupRequest) :
    wp (connections P d).machine (fun _ => False) (LoginRequestHandler.signup P request)
      (fun _ r st => Served P d session request r st) .out := by
  have hexit : request.requestId ≠ .exit := by simp [hid]
  have hnone : ∀ c, submittedCode P request ≠ some c := by simp [submittedCode, hid]
  unfold LoginRequestHandler.signup LoginManager.signup
  rw [wp_bind]
  refine wp_ordinary_call ordinary_lift fun t parsed => ?_
  cases parsed with
  | error e => exact served_out rfl
  | ok signup =>
      simp only [wp_bind]
      split_ifs
      · exact served_out rfl
      simp only [wp_bind]
      refine wp_ordinary_call (p := Action.external .getRandomAvatarColor)
        ⟨trivial, fun _ => trivial⟩ fun _ color => ?_
      refine wp_addUser_out _ _ _ _ _ _ _ (fun _ e => ?_) fun _ account hname hpassword => ?_
      · dsimp only
        split_ifs <;> exact served_out rfl
      dsimp only
      rw [← hname, ← hpassword]
      refine wp_login_account (fun _ m => ?_) (fun _ m => served_out rfl) fun hd _ x hx => ?_
      · simp only [wp_bind]
        refine wp_ordinary_call (p := Action.external .generateRandom6DigitCode)
          ⟨trivial, fun _ => trivial⟩ fun _ code => ?_
        refine Discipline.wp_call (D := connections P d) trivial fun sent _ => ?_
        cases sent with
        | none =>
            exact served_waiting code account.username request account.id hexit (hnone code) rfl
        | some e =>
            rw [hname]
            exact wp_abort fun _ => served_out rfl
      · have hserved : ∀ r : RequestResult, r.handler = .login →
            Served P d session request r (.inserted account) := by
          intro r hr
          refine served_next hexit (fun hd' => ?_) (by rw [hr]; rfl)
          rw [hd] at hd'
          cases hd'
        rcases x with e | ⟨_ | _, m⟩
        · exact hserved _ rfl
        · exact hserved _ rfl
        · exact absurd rfl (hx m)

theorem served_loginHandler :
    wp (connections P d).machine (fun _ => False) (LoginRequestHandler.handleRequest P request)
      (fun _ r st => Served P d session request r st) .out := by
  unfold LoginRequestHandler.handleRequest
  split_ifs
  · exact served_out rfl
  · split
    · next hid => exact served_login request hid
    · next hid => exact served_signup request hid
    · unfold LoginRequestHandler.forgotPassword
      rw [wp_bind]
      refine wp_ordinary_call ordinary_lift fun _ parsed => ?_
      cases parsed with
      | error e => exact served_out rfl
      | ok parsed =>
          rw [wp_bind]
          refine wp_reads (LoginManager.forgotPassword_reads _) fun _ status => ?_
          cases status <;> exact served_out rfl
    · exact served_out rfl
    · exact served_out rfl

end Login

/-! ### Logged users -/

section Players

variable {session : Session} (request : RequestInfo) (user : LoggedUser)

theorem served_menuLogout (r : RequestResult) (hr : r.handler = .login) :
    wp (connections P d).machine (fun _ => False)
      (LoginManager.logout user.username >>= fun _ => pure r)
      (fun _ r st => Served P d session request r st) (.member user.username) := by
  rw [wp_bind]
  exact wp_logout rfl (fun _ _ _ => Standing.noConfusion) fun _ => served_out hr

/-- The update is of the connection's own row. -/
theorem served_updateUserData (hexit : request.requestId ≠ .exit) :
    wp (connections P d).machine (fun _ => False)
      (MenuRequestHandler.updateUserData P user request)
      (fun _ r st => Served P d session request r st) (.member user.username) := by
  have hserved : ∀ r : RequestResult, r.handler = .menu user →
      Served P d session request r (.member user.username) := fun r hr =>
    served_next hexit (fun _ _ => Standing.noConfusion) (by rw [hr]; rfl)
  unfold MenuRequestHandler.updateUserData
  rw [wp_bind]
  refine wp_ordinary_call ordinary_lift fun _ userData => ?_
  cases userData with
  | error e => exact hserved _ rfl
  | ok userData =>
      dsimp only
      split_ifs
      · exact hserved _ rfl
      · rw [wp_bind]
        unfold UsersManager.updateUserData SqliteDatabase.updateUser
        cases colorNameToColor userData.avatarColor with
        | none => exact hserved _ rfl
        | some color =>
            simp only [wp_bind]
            refine Discipline.wp_call (D := connections P d) rfl fun updated _ => ?_
            cases updated <;> exact hserved _ rfl

theorem served_menuHandler :
    wp (connections P d).machine (fun _ => False)
      (MenuRequestHandler.handleRequest P user request)
      (fun _ r st => Served P d session request r st) (.member user.username) := by
  have hplays : ∀ {p : Action RequestResult}, request.requestId ≠ .exit → Plays user p →
      wp (connections P d).machine (fun _ => False) p
        (fun _ r st => Served P d session request r st) (.member user.username) :=
    fun hexit hp => served_plays hp hexit
  unfold MenuRequestHandler.handleRequest
  split_ifs with hrelevant
  · refine hplays ?_ (plays_pure rfl)
    rintro hid
    simp [MenuRequestHandler.isRequestRelevant, hid] at hrelevant
  · split
    · exact served_menuLogout request user _ rfl
    · next hid => exact hplays (by simp [hid]) (MenuRequestHandler.getRooms_plays user)
    · next hid =>
        exact hplays (by simp [hid]) (MenuRequestHandler.getPlayersInRoom_plays user request)
    · next hid => exact hplays (by simp [hid]) (MenuRequestHandler.getHighScores_plays user)
    · next hid => exact hplays (by simp [hid]) (MenuRequestHandler.getPersonalStatistics_plays user)
    · next hid => exact hplays (by simp [hid]) (MenuRequestHandler.joinRoom_plays user request)
    · next hid => exact hplays (by simp [hid]) (MenuRequestHandler.createRoom_plays user request)
    · next hid => exact hplays (by simp [hid]) (MenuRequestHandler.getUserData_plays user)
    · next hid => exact served_updateUserData request user (by simp [hid])
    · next hid =>
        unfold MenuRequestHandler.exit MenuRequestHandler.logout
        simp only [wp_bind]
        exact wp_logout rfl (fun _ _ _ => Standing.noConfusion) fun _ => served_exit hid
    · next hexit => exact hplays hexit (plays_pure rfl)

theorem served_roomMemberHandler (roomUuid roomName : String) :
    wp (connections P d).machine (fun _ => False)
      (RoomMemberRequestHandler.handleRequest roomUuid roomName user request)
      (fun _ r st => Served P d session request r st) (.member user.username) := by
  unfold RoomMemberRequestHandler.handleRequest
  dsimp only
  split_ifs with hrelevant
  · refine served_plays (plays_pure rfl) ?_
    rintro hid
    simp [RoomMemberRequestHandler.isRequestRelevant, hid] at hrelevant
  · split
    · next hid =>
        exact served_plays (RoomMemberRequestHandler.leaveRoom_plays roomUuid roomName user)
          (by simp [hid])
    · next hid =>
        exact served_plays (RoomMemberRequestHandler.getRoomState_plays roomUuid roomName user)
          (by simp [hid])
    · next hid =>
        exact served_exits (RoomMemberRequestHandler.leaveRoom_plays roomUuid roomName user) hid
    · next hexit => exact served_plays (plays_pure rfl) hexit

theorem served_roomAdminHandler (room : String) :
    wp (connections P d).machine (fun _ => False)
      (RoomAdminRequestHandler.handleRequest room user request)
      (fun _ r st => Served P d session request r st) (.member user.username) := by
  unfold RoomAdminRequestHandler.handleRequest
  split_ifs with hrelevant
  · refine served_plays (plays_pure rfl) ?_
    rintro hid
    simp [RoomAdminRequestHandler.isRequestRelevant, hid] at hrelevant
  · split
    · next hid =>
        exact served_plays (RoomAdminRequestHandler.closeRoom_plays room user) (by simp [hid])
    · next hid =>
        exact served_plays (RoomAdminRequestHandler.startGame_plays room user) (by simp [hid])
    · next hid =>
        exact served_plays (RoomAdminRequestHandler.getRoomState_plays room user) (by simp [hid])
    · next hid => exact served_exits (RoomAdminRequestHandler.closeRoom_plays room user) hid
    · next hexit => exact served_plays (plays_pure rfl) hexit

theorem served_gameHandler (game : String) :
    wp (connections P d).machine (fun _ => False)
      (GameRequestHandler.handleRequest P game user request)
      (fun _ r st => Served P d session request r st) (.member user.username) := by
  unfold GameRequestHandler.handleRequest
  split_ifs with hrelevant
  · refine served_plays (plays_pure rfl) ?_
    rintro hid
    simp [GameRequestHandler.isRequestRelevant, hid] at hrelevant
  · split
    · next hid =>
        exact served_plays (GameRequestHandler.leaveGame_plays game user) (by simp [hid])
    · next hid =>
        exact served_plays (GameRequestHandler.getQuestion_plays game user) (by simp [hid])
    · next hid =>
        exact served_plays (GameRequestHandler.submitAnswer_plays game user request)
          (by simp [hid])
    · next hid =>
        exact served_plays (GameRequestHandler.getGameResults_plays game user) (by simp [hid])
    · next hid => exact served_exits (GameRequestHandler.leaveGame_plays game user) hid
    · next hexit => exact served_plays (plays_pure rfl) hexit

end Players

/-- The server keeps to the discipline of the connections. -/
theorem handleClient_obeys (P : Platform) (d : Bool) :
    (connections P d).ObeyedBy (handleClient P) (fun session => session.handler.Stands)
      fun st => st = .out where
  start := rfl
  serve := by
    intro session request st _ hstands
    cases hsession : session.handler with
    | login =>
        rw [hsession] at hstands
        cases hstands
        simp only [handleClient, hsession]
        exact served_loginHandler request
    | verification tries email code username =>
        rw [hsession] at hstands
        obtain ⟨id, rfl⟩ := hstands
        simp only [handleClient, hsession]
        exact served_verification tries email code username request id
    | menu user =>
        rw [hsession] at hstands
        cases hstands
        simp only [handleClient, hsession]
        exact served_menuHandler request user
    | roomMember roomUuid roomName user =>
        rw [hsession] at hstands
        cases hstands
        simp only [handleClient, hsession]
        exact served_roomMemberHandler request user roomUuid roomName
    | roomAdmin room user =>
        rw [hsession] at hstands
        cases hstands
        simp only [handleClient, hsession]
        exact served_roomAdminHandler request user room
    | game game user =>
        rw [hsession] at hstands
        cases hstands
        simp only [handleClient, hsession]
        exact served_gameHandler request user game

end TriviaServer
