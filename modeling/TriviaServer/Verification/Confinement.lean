import TriviaServer.Verification.Birthdays
import TriviaServer.Verification.LoggedNames
import TriviaServer.Verification.RoomNumbers
import TriviaServer.Verification.Scores

/-! # What each handler may do

No manager checks who calls it. What keeps a connection to its own account, room and game is
the handler alone, and here it is shown to do so while the connections interleave. -/

namespace TriviaServer

open Interaction
open Program (Only)

variable {P : Platform} {d : Bool} {E : Fault → Prop}

/-! ## The operations of a handler -/

/-- What a game is started with. -/
structure Playable (questions : List Question) (players : List LoggedUser)
    (timePerQuestion : UInt32) : Prop where
  questions_le : 2 ≤ questions.length
  built : ∀ q ∈ questions, q.Built
  time_le : 5 ≤ timePerQuestion.toNat
  nodup : players.Nodup

/-- What the validator lets users write over their own accounts. -/
structure AcceptedUpdate (P : Platform) (address phoneNumber : String) (password : Option String)
    (avatarColor : UInt8) : Prop where
  address : (Validator.isValidAddress P address).1 = true
  phoneNumber : (Validator.isValidPhoneNumber P phoneNumber).1 = true
  password : ∀ text ∈ password, (Validator.isValidPassword P text).1 = true
  avatarColor : ∃ color : AvatarColor, avatarColor = color.toByte

/-- An account that the validator accepts, but for the birthday, which it checks by the day. -/
structure User.Accepted (P : Platform) (user : User) : Prop extends
    AcceptedUpdate P user.address user.phoneNumber (some user.password) user.avatarColor where
  username : (Validator.isValidUsername user.username).1 = true
  email : (Validator.isValidEmail P user.email).1 = true

namespace Handler

/-- The handlers that send a code to an account without a verified owner. -/
def Verifies : Handler → Prop
  | login => True
  | verification .. => True
  | _ => False

/-- The handlers that play a game, or are about to. -/
def InGame (h : Handler) (g : String) (user : LoggedUser) : Prop :=
  h = .game g user ∨ ∃ roomName, h = .roomMember g roomName user

/-- The operations a handler may perform, with their arguments. -/
def MayCall (P : Platform) (h : Handler) : Op → Prop
  | .login (.tryLogin _) => h = .login
  | .login (.logout name) => h = .login ∨ h.name = some name
  | .database (.insertUser row) =>
      h = .login ∧ row.Accepted P ∧ (P.isValidBirthday row.birthday).1 = true
  | .database (.removeUser _) => h.Verifies
  | .database (.updateUser name address phoneNumber password avatarColor) =>
      h = .menu ⟨name⟩ ∧ AcceptedUpdate P address phoneNumber password avatarColor
  | .database (.updateStatistics _) => ∃ g user, h.InGame g user
  | .room (.emplaceRoom uuid room) =>
      room.metadata.uuid = uuid ∧ room.metadata.isActive = false ∧
        MenuRequestHandler.isValidRoomDetails room.metadata = true ∧
        ∃ user, h = .menu user ∧ room.users = [user]
  | .room (.addUser _ user) => h = .menu user
  | .room (.removeUser uuid user) => ∃ roomName, h = .roomMember uuid roomName user
  | .room (.removeUserAt uuid user) => h = .game uuid user
  | .room (.getAllUsersAt uuid) => ∃ user, h = .game uuid user
  | .room (.eraseRoom uuid) => ∃ user, h = .game uuid user
  | .room (.deleteRoom uuid) => ∃ user, h = .roomAdmin uuid user
  | .room (.setIsActive uuid isActive) => isActive = true ∧ ∃ user, h = .roomAdmin uuid user
  | .game (.pushGame questions players uuid timePerQuestion) =>
      (∃ user, h = .roomAdmin uuid user) ∧ Playable questions players timePerQuestion
  | .game (.punishPlayer g user) => h.InGame g user
  | .game (.removePlayer g user) => h.InGame g user
  | .game (.markUserResultsAsSubmittedToDB g _) => ∃ user, h.InGame g user
  | .game (.submitting g _ _) => ∃ user, h.InGame g user
  | .game (.getPlayersResults g) => ∃ user, h.InGame g user
  | .game (.getOnlinePlayers g) => ∃ user, h.InGame g user
  | .game (.eraseGame g) => ∃ user, h.InGame g user
  | .game (.getCurrentQuestion g) => ∃ user, h = .game g user
  | .game (.checkAnswer g ..) => ∃ user, h = .game g user
  | .game (.sleepUntilReleased g _) => ∃ user, h = .game g user
  | .game (.recordAnswer g user ..) => h = .game g user
  | .external (.sendEmailVerification ..) => h.Verifies
  | _ => True

theorem mayCall_of_reads {h : Handler} {o : Op} (ho : o.Reads E) : h.MayCall P o := by
  cases o with
  | login o => exact ho.elim
  | room o => exact ho.elim
  | game o => exact ho.elim
  | database o =>
      cases o with
      | insertUser | removeUser | updateUser | updateStatistics => exact ho.elim
      | _ => trivial
  | external o =>
      cases o with
      | sendEmailVerification => exact ho.elim
      | _ => trivial

end Handler

/-- The operations other than the parts of `removePlayerFromRoom`. -/
def Op.Alone : Op → Prop
  | .room (.removeUserAt ..) => False
  | .room (.getAllUsersAt _) => False
  | .room (.eraseRoom _) => False
  | _ => True

/-- Only players make `removePlayerFromRoom`. -/
theorem Handler.alone_of_mayCall {h : Handler} (hh : ∀ game user, h ≠ .game game user) {o : Op}
    (ho : h.MayCall P o) : o.Alone := by
  cases o with
  | room o =>
      cases o with
      | removeUserAt uuid user => exact hh uuid user ho
      | getAllUsersAt uuid =>
          obtain ⟨user, rfl⟩ := ho
          exact hh uuid user rfl
      | eraseRoom uuid =>
          obtain ⟨user, rfl⟩ := ho
          exact hh uuid user rfl
      | _ => trivial
  | _ => trivial

theorem Op.Leaving.alone {g : String} {o : Op} (ho : o.Leaving g) : o.Alone := by
  cases o with
  | room o => exact ho.elim
  | _ => trivial

theorem alone_of_reads {α : Type} {p : Action α} (hp : p.Only (Op.Reads fun _ => True)) :
    p.Only Op.Alone :=
  (leaving_of_reads (g := "") hp).mono fun _ ho => ho.alone

/-- What a handler counts on: rooms are what their creation made them, nobody is in a room
twice, and a shuffle only changes the order. -/
def Handler.Assumed : Event operations → Prop
  | ⟨.room (.getMetadata uuid), metadata⟩ =>
      metadata.uuid = uuid ∧ MenuRequestHandler.isValidRoomDetails metadata = true
  | ⟨.room (.getAllUsers _), users⟩ => users.Nodup
  | ⟨.external (.shuffle answers), shuffled⟩ => shuffled.Perm answers
  | _ => True

/-- The discipline of the handlers: a connection stands where the handler of its request does. -/
def handlers (P : Platform) : Discipline operations Session RequestInfo RequestResult Handler where
  initial := RequestHandlerFactory.createLoginRequestHandler
  observe h
    | .received session _ => session.handler
    | _ => h
  allowed := Handler.MayCall P
  assumed _ := Handler.Assumed
  mayFinish _ _ _ _ := True

/-! ## Programs that keep to a handler's operations -/

/-- Only calls that the handler may make, and then a value in `ψ`. -/
def Confined {α : Type} (P : Platform) (h : Handler) (p : Action α) (ψ : α → Prop) : Prop :=
  wp (handlers P).machine (fun _ => False) p (fun _ a h' => h' = h ∧ ψ a) h

section Confined

variable {α β : Type} {h : Handler} {p : Action α} {ψ : α → Prop} {χ : β → Prop}

theorem confined_pure {a : α} (ha : ψ a) : Confined P h (pure a) ψ := ⟨rfl, ha⟩

theorem Confined.then {f : α → Action β} (hp : Confined P h p ψ)
    (hf : ∀ a, ψ a → Confined P h (f a) χ) : Confined P h (p >>= f) χ := by
  unfold Confined
  rw [wp_bind]
  refine wp_imp hp ?_
  rintro t a _ ⟨rfl, ha⟩
  exact hf a ha

theorem confined_call {o : Op} {ψ : o.Answer → Prop} (ho : h.MayCall P o)
    (hr : ∀ r, Handler.Assumed ⟨o, r⟩ → ψ r) :
    Confined P h (Program.call (S := operations) o) ψ :=
  Discipline.wp_call (D := handlers P) ho fun r hassumed => ⟨rfl, hr r hassumed⟩

theorem confined_of_only (hp : p.Only (h.MayCall P)) : Confined P h p fun _ => True :=
  Discipline.wp_neutralAt (D := handlers P) (hp.mono fun _ ho => ⟨ho, fun _ => rfl⟩)
    fun _ _ => ⟨rfl, trivial⟩

theorem confined_bind {f : α → Action β} (hp : p.Only (h.MayCall P))
    (hf : ∀ a, Confined P h (f a) χ) : Confined P h (p >>= f) χ :=
  (confined_of_only hp).then fun a _ => hf a

theorem mayCall_reads (hp : p.Only (Op.Reads fun _ => True)) : p.Only (h.MayCall P) :=
  hp.mono fun _ => Handler.mayCall_of_reads

theorem only_throw {φ : Op → Prop} (hφ : ∀ fault, φ (.external (.throw fault))) {fault : Fault} :
    (Action.throw (α := α) fault).Only φ :=
  ⟨hφ fault, fun r => Empty.elim r⟩

theorem only_lift {φ : Op → Prop} (hφ : ∀ fault, φ (.external (.throw fault)))
    {x : Except Fault α} : (Action.lift x).Only φ := by
  cases x with
  | error e => exact only_throw hφ
  | ok a => trivial

theorem mayCall_lift {x : Except Fault α} : (Action.lift x).Only (h.MayCall P) :=
  only_lift fun _ => trivial

theorem mayCall_throw {fault : Fault} : (Action.throw (α := α) fault).Only (h.MayCall P) :=
  only_throw fun _ => trivial

theorem mayCall_db {o : DbOp} {f : o.Answer → Action β} (ho : h.MayCall P (.database o))
    (hf : ∀ r, (f r).Only (h.MayCall P)) : (Action.db o >>= f).Only (h.MayCall P) :=
  ⟨ho, hf⟩

theorem mayCall_room {o : RoomOp} {f : o.Answer → Action β} (ho : h.MayCall P (.room o))
    (hf : ∀ r, (f r).Only (h.MayCall P)) : (Action.room o >>= f).Only (h.MayCall P) :=
  ⟨ho, hf⟩

theorem mayCall_game {o : GameOp} {f : o.Answer → Action β} (ho : h.MayCall P (.game o))
    (hf : ∀ r, (f r).Only (h.MayCall P)) : (Action.game o >>= f).Only (h.MayCall P) :=
  ⟨ho, hf⟩

theorem mayCall_external {o : ExternalOp} {f : o.Answer → Action β}
    (ho : h.MayCall P (.external o)) (hf : ∀ r, (f r).Only (h.MayCall P)) :
    (Action.external o >>= f).Only (h.MayCall P) :=
  ⟨ho, hf⟩

theorem mayCall_getRoom (roomUUID : String) :
    (RoomManager.getRoom roomUUID).Only (h.MayCall P) := by
  refine mayCall_room trivial fun found => ?_
  cases found <;> trivial

theorem mayCall_getGameById (id : String) : (GameManager.getGameById id).Only (h.MayCall P) :=
  mayCall_game trivial fun _ => trivial

theorem mayCall_logout {name : String} (hn : h.name = some name) :
    (LoginManager.logout name).Only (h.MayCall P) :=
  Program.only_call (S := operations) (o := .login (.logout name)) (.inr hn)

end Confined

/-! ## Database calls with a condition -/

theorem mayCall_submitGameStatistics {h : Handler} {g : String} {user : LoggedUser}
    (hh : h.InGame g user) (gameData : GameData) (name : String) :
    (SqliteDatabase.submitGameStatistics gameData name).Only (h.MayCall P) := by
  apply (mayCall_reads (SqliteDatabase.getUserStatistics_reads name)).bind
  intro stats
  cases stats with
  | error e => trivial
  | ok stats =>
      apply mayCall_lift.bind
      intro average
      refine mayCall_db ⟨g, user, hh⟩ fun updated => ?_
      cases updated <;> trivial

theorem mayCall_removeUserUnverifiedUser {h : Handler} (hh : h.Verifies) (name : String) :
    (UsersManager.removeUserUnverifiedUser name).Only (h.MayCall P) := by
  unfold UsersManager.removeUserUnverifiedUser SqliteDatabase.removeUser
  apply Only.bind
  · apply (mayCall_reads (SqliteDatabase.getUser_reads name)).bind
    intro user
    cases user with
    | error e => trivial
    | ok user =>
        refine mayCall_db hh fun removed => ?_
        cases removed <;> trivial
  · intro _
    trivial

/-! ## Leaving a game -/

namespace GameManager

variable {h : Handler} {g : String} {user : LoggedUser} (hh : h.InGame g user)

include hh

theorem mayCall_submitResults (results : List (LoggedUser × GameData)) :
    (submitResults g results).Only (h.MayCall P) := by
  induction results with
  | nil => trivial
  | cons result rest ih =>
      unfold submitResults
      split_ifs
      · exact ih
      · refine mayCall_game ⟨user, hh⟩ fun _ => mayCall_game ⟨user, hh⟩ fun _ => ?_
        exact (mayCall_submitGameStatistics hh _ _).bind fun _ => ih

theorem mayCall_punishLeaver : (punishLeaver g user).Only (h.MayCall P) := by
  refine mayCall_game trivial fun finished => ?_
  cases finished with
  | true => trivial
  | false => exact mayCall_game hh fun _ => trivial

theorem mayCall_submitLeaver : (submitLeaver g user).Only (h.MayCall P) := by
  refine mayCall_game trivial fun finished => ?_
  cases finished with
  | true => trivial
  | false =>
      refine mayCall_game ⟨user, hh⟩ fun _ => mayCall_game ⟨user, hh⟩ fun results => ?_
      split
      · exact mayCall_throw
      · exact mayCall_game ⟨user, hh⟩ fun _ => mayCall_submitGameStatistics hh _ _

theorem mayCall_submitIfFinished : (submitIfFinished g).Only (h.MayCall P) := by
  refine mayCall_game trivial fun finished => ?_
  cases finished with
  | false => trivial
  | true =>
      refine mayCall_game (o := .getGameById g) trivial fun _ => ?_
      exact mayCall_game ⟨user, hh⟩ fun results => mayCall_submitResults hh _

theorem mayCall_eraseIfEmpty : (eraseIfEmpty g).Only (h.MayCall P) := by
  refine mayCall_game ⟨user, hh⟩ fun online => ?_
  split_ifs
  · exact mayCall_game ⟨user, hh⟩ fun _ => trivial
  · trivial

theorem mayCall_removePlayerFromGame : (removePlayerFromGame g user).Only (h.MayCall P) := by
  apply (mayCall_punishLeaver hh).bind
  intro _
  refine mayCall_game hh fun _ => ?_
  apply (mayCall_submitLeaver hh).bind
  intro _
  apply (mayCall_submitIfFinished hh).bind
  intro _
  exact (mayCall_eraseIfEmpty hh).bind fun _ => trivial

end GameManager

/-! ## The handlers -/

theorem LoginManager.mayCall_login (username password : String) :
    (login username password).Only (Handler.login.MayCall P) := by
  apply (mayCall_reads (SqliteDatabase.doesUserExist_reads username)).bind
  intro exist
  rcases exist with e | _ | _
  · trivial
  · trivial
  apply (mayCall_reads (SqliteDatabase.doesPasswordMatch_reads username password)).bind
  intro passwordMatch
  rcases passwordMatch with e | _ | _
  · trivial
  · trivial
  refine ⟨rfl, fun entered => ?_⟩
  cases entered <;> trivial

theorem SqliteDatabase.mayCall_addUser {userName password email address phoneNumber
    birthday : String} (hvalid : (LoginManager.isValidSignupCredentials P userName password email
      address phoneNumber birthday).1 = true) (color : AvatarColor) :
    (addUser userName password email address phoneNumber birthday color).Only
      (Handler.login.MayCall P) := by
  have hchecks := firstInvalid_valid hvalid
  simp only [List.mem_cons, List.not_mem_nil, or_false, forall_eq_or_imp, forall_eq] at hchecks
  obtain ⟨husername, hemail, haddress, hphoneNumber, hbirthday, hpassword⟩ := hchecks
  refine mayCall_external trivial fun time => ?_
  apply (mayCall_reads (doesUserExist_reads userName)).bind
  intro exist
  rcases exist with e | _ | _
  · trivial
  · apply (mayCall_reads (doesEmailExist_reads email)).bind
    intro emailExist
    rcases emailExist with e | _ | _
    · trivial
    · apply mayCall_db
      · refine ⟨rfl, ⟨⟨haddress, hphoneNumber, ?_, color, rfl⟩, husername, hemail⟩, hbirthday⟩
        rintro _ ⟨⟩
        exact hpassword
      · intro inserted
        cases inserted <;> trivial
    · trivial
  · trivial

theorem LoginManager.mayCall_signup (username password email address phoneNumber
    birthday : String) :
    (signup P username password email address phoneNumber birthday).Only
      (Handler.login.MayCall P) := by
  unfold signup
  dsimp only
  split_ifs with hvalid
  · trivial
  · refine mayCall_external trivial fun color => ?_
    apply (SqliteDatabase.mayCall_addUser (by simpa using hvalid) color).bind
    intro added
    cases added with
    | none => exact mayCall_login username password
    | some e =>
        dsimp only
        split_ifs <;> trivial

namespace LoginRequestHandler

theorem mayCall_login (request : RequestInfo) :
    (login P request).Only (Handler.login.MayCall P) := by
  apply mayCall_lift.bind
  intro parsed
  cases parsed with
  | error e => trivial
  | ok parsed =>
      apply (LoginManager.mayCall_login _ _).bind
      intro entered
      rcases entered with e | ⟨_ | _, _⟩ <;> trivial

theorem mayCall_signup (request : RequestInfo) :
    (signup P request).Only (Handler.login.MayCall P) := by
  apply mayCall_lift.bind
  intro parsed
  cases parsed with
  | error e => trivial
  | ok parsed =>
      apply (LoginManager.mayCall_signup ..).bind
      intro signed
      rcases signed with e | ⟨_ | _, _⟩
      · trivial
      · trivial
      · refine mayCall_external trivial fun code => mayCall_external trivial fun sent => ?_
        cases sent with
        | none => trivial
        | some e =>
            apply (mayCall_removeUserUnverifiedUser (h := .login) trivial _).bind
            intro _
            exact ⟨.inl rfl, fun _ => trivial⟩

theorem mayCall_forgotPassword (request : RequestInfo) :
    (forgotPassword P request).Only (Handler.login.MayCall P) := by
  apply mayCall_lift.bind
  intro parsed
  cases parsed with
  | error e => trivial
  | ok parsed =>
      apply (mayCall_reads (LoginManager.forgotPassword_reads _)).bind
      intro status
      cases status <;> trivial

theorem mayCall_handleRequest (request : RequestInfo) :
    (handleRequest P request).Only (Handler.login.MayCall P) := by
  unfold handleRequest
  split_ifs
  · trivial
  · split
    · exact mayCall_login request
    · exact mayCall_signup request
    · exact mayCall_forgotPassword request
    · trivial
    · trivial

end LoginRequestHandler

namespace VerificationRequestHandler

variable (tries : UInt32) (email code username : String)

theorem mayCall_abort {p : Action RequestResult}
    (hp : p.Only ((Handler.verification tries email code username).MayCall P)) :
    (UsersManager.removeUserUnverifiedUser username >>= fun _ =>
      LoginManager.logout username >>= fun _ => p).Only
      ((Handler.verification tries email code username).MayCall P) := by
  have hverifies : (Handler.verification tries email code username).Verifies := trivial
  apply (mayCall_removeUserUnverifiedUser hverifies _).bind
  intro _
  exact (mayCall_logout rfl).bind fun _ => hp

theorem mayCall_submitVerificationCode (request : RequestInfo) :
    (submitVerificationCode P tries email code username request).Only
      ((Handler.verification tries email code username).MayCall P) := by
  apply mayCall_lift.bind
  intro parsed
  cases parsed with
  | error e => trivial
  | ok parsed =>
      dsimp only
      split_ifs
      · trivial
      · exact mayCall_abort tries email code username trivial
      · trivial

theorem mayCall_handleRequest (request : RequestInfo) :
    (handleRequest P tries email code username request).Only
      ((Handler.verification tries email code username).MayCall P) := by
  unfold handleRequest
  dsimp only
  split_ifs
  · trivial
  · split
    · exact mayCall_submitVerificationCode tries email code username request
    · refine mayCall_external trivial fun code => mayCall_external trivial fun sent => ?_
      cases sent <;> trivial
    · exact mayCall_abort tries email code username trivial
    · trivial

end VerificationRequestHandler

namespace MenuRequestHandler

variable (user : LoggedUser)

theorem mayCall_roomsResponse {h : Handler} (rooms : List RoomData) :
    (roomsResponse rooms).Only (h.MayCall P) := by
  induction rooms with
  | nil => trivial
  | cons room rest ih =>
      apply (mayCall_getRoom room.uuid).bind
      intro found
      cases found with
      | error e => exact ih
      | ok r =>
          refine mayCall_room trivial fun users => ?_
          apply (mayCall_reads (UsersManager.transformLoggedUsersToPlayers_reads users)).bind
          intro players
          cases players with
          | error e => exact ih
          | ok players =>
              refine Only.bind ?_ fun finished => ih.bind fun _ => trivial
              unfold isRoomFinished
              split_ifs
              · exact mayCall_game (o := .getGameById room.uuid) trivial fun _ =>
                  mayCall_game trivial fun _ => trivial
              · trivial

theorem mayCall_getPlayersInRoom (request : RequestInfo) :
    (getPlayersInRoom P user request).Only ((Handler.menu user).MayCall P) := by
  apply mayCall_lift.bind
  intro parsed
  cases parsed with
  | error e => trivial
  | ok parsed =>
      apply (mayCall_getRoom _).bind
      intro found
      cases found with
      | error e => trivial
      | ok room =>
          refine mayCall_room trivial fun users => ?_
          apply (mayCall_reads (UsersManager.transformLoggedUsersToPlayers_reads users)).bind
          intro players
          cases players <;> trivial

theorem mayCall_joinRoom (request : RequestInfo) :
    (joinRoom P user request).Only ((Handler.menu user).MayCall P) := by
  apply mayCall_lift.bind
  intro parsed
  cases parsed with
  | error e => trivial
  | ok parsed =>
      apply (mayCall_getRoom _).bind
      intro found
      cases found with
      | error e => trivial
      | ok room =>
          refine mayCall_room rfl fun added => ?_
          cases added with
          | some e => trivial
          | none => exact mayCall_room trivial fun _ => trivial

theorem mayCall_createRoom (request : RequestInfo) :
    (createRoom P user request).Only ((Handler.menu user).MayCall P) := by
  apply mayCall_lift.bind
  intro parsed
  cases parsed with
  | error e => trivial
  | ok parsed =>
      dsimp only
      split_ifs with hvalid
      · trivial
      · refine mayCall_room (o := .generateRoomUUID) trivial fun uuid => ?_
        refine mayCall_room ⟨rfl, rfl, ?_, user, rfl, rfl⟩ fun _ => trivial
        simpa [isValidRoomDetails] using hvalid

theorem acceptedUpdate_of_isValidUserData {userData : UpdateUserDataRequest}
    (hvalid : (UsersManager.isValidUserData P userData).1 = true) (color : AvatarColor) :
    AcceptedUpdate P userData.address userData.phoneNumber userData.password color.toByte := by
  have hchecks := firstInvalid_valid hvalid
  constructor
  · exact hchecks _ (by simp)
  · exact hchecks _ (by simp)
  · intro text htext
    apply hchecks
    rw [Option.mem_def.mp htext]
    simp
  · exact ⟨color, rfl⟩

theorem mayCall_updateUserData (request : RequestInfo) :
    (updateUserData P user request).Only ((Handler.menu user).MayCall P) := by
  apply mayCall_lift.bind
  intro parsed
  cases parsed with
  | error e => trivial
  | ok userData =>
      dsimp only
      split_ifs with hvalid
      · trivial
      · unfold UsersManager.updateUserData SqliteDatabase.updateUser
        cases colorNameToColor userData.avatarColor with
        | none => trivial
        | some color =>
            apply Only.bind
            · apply mayCall_db
              · exact ⟨rfl, acceptedUpdate_of_isValidUserData (by simpa using hvalid) color⟩
              · intro updated
                cases updated <;> trivial
            · intro updated
              cases updated <;> trivial

theorem mayCall_getUserData : (getUserData user).Only ((Handler.menu user).MayCall P) := by
  apply (mayCall_reads (SqliteDatabase.getUserData_reads _)).bind
  intro userData
  cases userData with
  | error e => trivial
  | ok userData =>
      apply (mayCall_reads (StatisticsManager.getUserStatistics_reads _)).bind
      intro stats
      cases stats <;> trivial

theorem mayCall_handleRequest (request : RequestInfo) :
    (handleRequest P user request).Only ((Handler.menu user).MayCall P) := by
  unfold handleRequest
  split_ifs
  · trivial
  · split
    · exact (mayCall_logout rfl).bind fun _ => trivial
    · exact mayCall_room trivial fun rooms => (mayCall_roomsResponse rooms).bind fun _ => trivial
    · exact mayCall_getPlayersInRoom user request
    · apply (mayCall_reads SqliteDatabase.getHighScores_reads).bind
      intro scores
      cases scores <;> trivial
    · apply (mayCall_reads (StatisticsManager.getUserStatistics_reads _)).bind
      intro stats
      cases stats <;> trivial
    · exact mayCall_joinRoom user request
    · exact mayCall_createRoom user request
    · exact mayCall_getUserData user
    · exact mayCall_updateUserData user request
    · exact (mayCall_logout rfl).bind fun _ => trivial
    · trivial

end MenuRequestHandler

namespace RoomMemberRequestHandler

variable (roomUuid roomName : String) (user : LoggedUser)

theorem mayCall_leaveRoom : (leaveRoom roomUuid roomName user).Only
    ((Handler.roomMember roomUuid roomName user).MayCall P) := by
  refine mayCall_room (o := .getRoomState roomUuid) trivial fun roomState => ?_
  cases roomState with
  | none => trivial
  | some roomState =>
      dsimp only
      split_ifs
      · refine mayCall_game (o := .getGameById roomUuid) trivial fun _ => ?_
        apply (GameManager.mayCall_removePlayerFromGame (.inr ⟨roomName, rfl⟩)).bind
        intro _
        exact mayCall_room ⟨roomName, rfl⟩ fun _ => trivial
      · exact mayCall_room ⟨roomName, rfl⟩ fun _ => trivial

theorem mayCall_getRoomState : (getRoomState roomUuid roomName user).Only
    ((Handler.roomMember roomUuid roomName user).MayCall P) := by
  refine mayCall_room (o := .getRoomState roomUuid) trivial fun roomState => ?_
  cases roomState with
  | none => trivial
  | some roomState =>
      apply (mayCall_reads (UsersManager.transformLoggedUsersToPlayers_reads _)).bind
      intro players
      cases players with
      | error e => trivial
      | ok players =>
          dsimp only
          split_ifs
          · exact (mayCall_getGameById _).bind fun _ => trivial
          · trivial

theorem mayCall_handleRequest (request : RequestInfo) :
    (handleRequest roomUuid roomName user request).Only
      ((Handler.roomMember roomUuid roomName user).MayCall P) := by
  unfold handleRequest
  dsimp only
  split_ifs
  · trivial
  · split
    · exact mayCall_leaveRoom roomUuid roomName user
    · exact mayCall_getRoomState roomUuid roomName user
    · exact (mayCall_logout rfl).bind fun _ => mayCall_leaveRoom roomUuid roomName user
    · trivial

end RoomMemberRequestHandler

/-- The operations of a player that stays in the game. -/
def Op.Played (game : String) (user : LoggedUser) : Op → Prop
  | .game (.isFinished g) => g = game
  | .game (.getCurrentQuestion g) => g = game
  | .game (.checkAnswer g ..) => g = game
  | .game (.sleepUntilReleased g _) => g = game
  | .game (.recordAnswer g player ..) => g = game ∧ player = user
  | .game (.getPlayersResults g) => g = game
  | .game (.getOnlinePlayers g) => g = game
  | o => o.Reads fun _ => True

namespace Op.Played

variable {game : String} {user : LoggedUser} {o : Op}

theorem of_reads (h : o.Reads fun _ => True) : o.Played game user := by
  cases o with
  | game o => exact h.elim
  | _ => exact h

theorem mayCall (h : o.Played game user) : (Handler.game game user).MayCall P o := by
  cases o with
  | game o =>
      cases o with
      | isFinished => trivial
      | getCurrentQuestion | checkAnswer | sleepUntilReleased =>
          cases h
          exact ⟨user, rfl⟩
      | recordAnswer =>
          obtain ⟨rfl, rfl⟩ := h
          rfl
      | getPlayersResults | getOnlinePlayers =>
          cases h
          exact ⟨user, .inl rfl⟩
      | _ => exact h.elim
  | _ => exact Handler.mayCall_of_reads (E := fun _ => True) h

theorem alone (h : o.Played game user) : o.Alone := by
  cases o with
  | room o => exact h.elim
  | _ => trivial

end Op.Played

namespace GameRequestHandler

variable (game : String) (user : LoggedUser)

theorem played_getQuestion : (getQuestion game user).Only (Op.Played game user) := by
  refine ⟨rfl, fun finished => ?_⟩
  cases (finished : Bool) with
  | true => trivial
  | false => exact ⟨rfl, fun _ => trivial⟩

theorem played_submitAnswer (request : RequestInfo) :
    (submitAnswer P game user request).Only (Op.Played game user) := by
  apply (only_lift fun _ => trivial).bind
  intro parsed
  cases parsed with
  | error e => trivial
  | ok parsed =>
      refine ⟨rfl, fun finished => ?_⟩
      cases (finished : Bool) with
      | true => trivial
      | false =>
          refine ⟨rfl, fun checked => ?_⟩
          cases (checked : Result (UInt32 × UInt32)) with
          | error e => trivial
          | ok answer => exact ⟨rfl, fun _ => ⟨⟨rfl, rfl⟩, fun _ => trivial⟩⟩

theorem played_getGameResults : (getGameResults game user).Only (Op.Played game user) := by
  refine ⟨rfl, fun finished => ?_⟩
  cases (finished : Bool) with
  | false => trivial
  | true =>
      refine ⟨rfl, fun usersMap => ⟨rfl, fun online => ?_⟩⟩
      have hreads := UsersManager.transformLoggedUsersToPlayers_reads (E := fun _ => True)
      apply ((hreads _).mono fun _ => Op.Played.of_reads).bind
      intro players
      cases players with
      | error e => trivial
      | ok players =>
          apply (only_lift fun _ => trivial).bind
          intro results
          split
          · exact only_throw fun _ => trivial
          · trivial

theorem mayCall_leaveGame :
    (leaveGame game user).Only ((Handler.game game user).MayCall P) := by
  refine mayCall_game trivial fun _ => ?_
  apply (GameManager.mayCall_removePlayerFromGame (.inl rfl)).bind
  intro submitResult
  cases submitResult with
  | none =>
      exact (RoomManager.removePlayerFromRoom_only (φ := (Handler.game game user).MayCall P)
        rfl ⟨user, rfl⟩ ⟨user, rfl⟩).bind fun _ => trivial
  | some e => trivial

theorem mayCall_handleRequest (request : RequestInfo) :
    (handleRequest P game user request).Only ((Handler.game game user).MayCall P) := by
  unfold handleRequest
  split_ifs
  · trivial
  · split
    · exact mayCall_leaveGame game user
    · exact (played_getQuestion game user).mono fun _ => Op.Played.mayCall
    · exact (played_submitAnswer game user request).mono fun _ => Op.Played.mayCall
    · exact (played_getGameResults game user).mono fun _ => Op.Played.mayCall
    · exact (mayCall_logout rfl).bind fun _ => mayCall_leaveGame game user
    · trivial

end GameRequestHandler

/-! ## The admin of a room -/

theorem GameManager.confined_toQuestions {h : Handler} (questions : List QuestionDb) :
    Confined P h (toQuestions questions)
      fun qs => qs.length = questions.length ∧ ∀ q ∈ qs, q.Built := by
  induction questions with
  | nil => exact confined_pure ⟨rfl, by simp⟩
  | cons question rest ih =>
      refine Confined.then (confined_call (o := .external (.shuffle question.answers)) trivial
        fun _ hr => hr) fun shuffled hperm => ih.then fun qs hqs => confined_pure ?_
      refine ⟨by simp [hqs.1], ?_⟩
      simpa using ⟨⟨question, shuffled, hperm, rfl⟩, hqs.2⟩

/-- The operations of the admin of a room. -/
def Op.Administers : Op → Prop
  | .login (.logout _) => True
  | .room o => (Op.room o).Alone
  | .game (.pushGame ..) => True
  | o => o.Reads fun _ => True

namespace Op.Administers

variable {o : Op}

theorem of_reads (h : o.Reads fun _ => True) : o.Administers := by
  cases o with
  | login o => exact h.elim
  | room o => exact h.elim
  | game o => exact h.elim
  | _ => exact h

theorem alone (h : o.Administers) : o.Alone := by
  cases o with
  | room o => exact h
  | _ => trivial

end Op.Administers

theorem administers_reads {α : Type} {p : Action α} (hp : p.Only (Op.Reads fun _ => True)) :
    p.Only Op.Administers :=
  hp.mono fun _ => Op.Administers.of_reads

theorem administers_room {α : Type} {o : RoomOp} {f : o.Answer → Action α}
    (ho : (Op.room o).Alone) (hf : ∀ r, (f r).Only Op.Administers) :
    (Action.room o >>= f).Only Op.Administers :=
  ⟨ho, hf⟩

theorem GameManager.administers_createGame (room : String) :
    (createGame room).Only Op.Administers := by
  refine administers_room trivial fun metadata => ?_
  apply (administers_reads (SqliteDatabase.getQuestions_reads _)).bind
  intro questions
  cases questions with
  | error e => trivial
  | ok questionsDb =>
      refine administers_room trivial fun metadata => ?_
      split_ifs
      · trivial
      · apply (administers_reads (GameManager.toQuestions_reads _)).bind
        intro questions
        refine administers_room trivial fun players => administers_room trivial fun metadata => ?_
        exact ⟨trivial, fun _ => trivial⟩

namespace RoomAdminRequestHandler

variable (room : String) (user : LoggedUser)

theorem administers_closeRoom : (closeRoom room user).Only Op.Administers :=
  ⟨trivial, fun _ => ⟨trivial, fun _ => trivial⟩⟩

theorem administers_startGame : (startGame room user).Only Op.Administers := by
  refine administers_room trivial fun users => ?_
  split_ifs
  · trivial
  · apply (GameManager.administers_createGame room).bind
    intro game
    cases game with
    | error e => trivial
    | ok game => exact ⟨trivial, fun _ => trivial⟩

theorem administers_getRoomState : (getRoomState room user).Only Op.Administers := by
  refine administers_room trivial fun metadata => administers_room (o := .getRoomState
    metadata.uuid) trivial fun roomState => administers_room trivial fun users => ?_
  apply (administers_reads (UsersManager.transformLoggedUsersToPlayers_reads users)).bind
  intro players
  cases players with
  | error e => trivial
  | ok players =>
      cases roomState with
      | none => exact only_throw fun _ => trivial
      | some roomState => trivial

theorem administers_handleRequest (request : RequestInfo) :
    (handleRequest room user request).Only Op.Administers := by
  unfold handleRequest
  split_ifs
  · trivial
  · split
    · exact administers_closeRoom room user
    · exact administers_startGame room user
    · exact administers_getRoomState room user
    · exact ⟨trivial, fun _ => administers_closeRoom room user⟩
    · trivial

/-- All data that the game is started with comes from a room of this uuid. -/
theorem confined_createGame : Confined P (.roomAdmin room user) (GameManager.createGame room)
    fun _ => True := by
  refine confined_bind (Program.only_call (S := operations) trivial) fun _ => ?_
  refine confined_bind (mayCall_reads (SqliteDatabase.getQuestions_reads _)) fun questionsDb => ?_
  cases questionsDb with
  | error e => exact confined_pure trivial
  | ok questionsDb =>
      refine Confined.then (confined_call (o := .room (.getMetadata room)) trivial
        fun _ hr => hr) fun metadata hmetadata => ?_
      split_ifs with hlength
      · exact confined_pure trivial
      refine Confined.then (GameManager.confined_toQuestions questionsDb) fun questions hqs => ?_
      refine Confined.then (confined_call (o := .room (.getAllUsers room)) trivial
        fun _ hr => hr) fun players hplayers => ?_
      refine Confined.then (confined_call (o := .room (.getMetadata room)) trivial
        fun _ hr => hr) fun metadata' hmetadata' => ?_
      have hbounds := isValidRoomDetails_bounds hmetadata.2
      have hbounds' := isValidRoomDetails_bounds hmetadata'.2
      refine confined_bind (Program.only_call (S := operations) ⟨⟨user, ?_⟩, ?_⟩)
        fun _ => confined_pure trivial
      · rw [hmetadata'.1]
      · exact ⟨by omega, hqs.2, hbounds'.2.2, hplayers⟩

theorem confined_startGame : Confined P (.roomAdmin room user) (startGame room user)
    fun _ => True := by
  refine confined_bind (Program.only_call (S := operations) trivial) fun users => ?_
  split_ifs
  · exact confined_pure trivial
  · refine Confined.then (confined_createGame room user) fun game _ => ?_
    cases game with
    | error e => exact confined_pure trivial
    | ok game =>
        exact confined_bind (Program.only_call (S := operations) ⟨rfl, user, rfl⟩)
          fun _ => confined_pure trivial

theorem confined_closeRoom : Confined P (.roomAdmin room user) (closeRoom room user)
    fun _ => True := by
  refine Confined.then (confined_call (o := .room (.getMetadata room)) trivial
    fun _ hr => hr) fun metadata hmetadata => ?_
  refine confined_bind (Program.only_call (S := operations) ⟨user, ?_⟩)
    fun _ => confined_pure trivial
  rw [hmetadata.1]

theorem mayCall_getRoomState :
    (getRoomState room user).Only ((Handler.roomAdmin room user).MayCall P) := by
  refine mayCall_room trivial fun metadata => mayCall_room (o := .getRoomState metadata.uuid)
    trivial fun roomState => mayCall_room trivial fun users => ?_
  apply (mayCall_reads (UsersManager.transformLoggedUsersToPlayers_reads users)).bind
  intro players
  cases players with
  | error e => trivial
  | ok players =>
      cases roomState with
      | none => exact mayCall_throw
      | some roomState => trivial

theorem confined_handleRequest (request : RequestInfo) :
    Confined P (.roomAdmin room user) (handleRequest room user request) fun _ => True := by
  unfold handleRequest
  split_ifs
  · exact confined_pure trivial
  · split
    · exact confined_closeRoom room user
    · exact confined_startGame room user
    · exact confined_of_only (mayCall_getRoomState room user)
    · exact confined_bind (mayCall_logout rfl) fun _ => confined_closeRoom room user
    · exact confined_pure trivial

end RoomAdminRequestHandler

theorem Handler.confined_handleRequest (h : Handler) (request : RequestInfo) :
    Confined P h (h.handleRequest P request) fun _ => True := by
  cases h with
  | login => exact confined_of_only (LoginRequestHandler.mayCall_handleRequest request)
  | verification tries email code username =>
      exact confined_of_only
        (VerificationRequestHandler.mayCall_handleRequest tries email code username request)
  | menu user => exact confined_of_only (MenuRequestHandler.mayCall_handleRequest user request)
  | roomMember roomUuid roomName user =>
      exact confined_of_only
        (RoomMemberRequestHandler.mayCall_handleRequest roomUuid roomName user request)
  | roomAdmin room user => exact RoomAdminRequestHandler.confined_handleRequest room user request
  | game game user =>
      exact confined_of_only (GameRequestHandler.mayCall_handleRequest game user request)

theorem handleClient_confined (P : Platform) :
    (handlers P).ObeyedBy (handleClient P) (fun _ _ => True) fun _ => True where
  start := trivial
  serve session request _ _ _ :=
    wp_imp (session.handler.confined_handleRequest request) fun _ a _ _ =>
      ⟨trivial, fun sent => by
        cases (handleClient P).next request a sent <;> trivial⟩

end TriviaServer
