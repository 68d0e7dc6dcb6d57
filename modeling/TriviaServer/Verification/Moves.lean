import TriviaServer.Verification.Departure

/-! # What a request does to the rooms and the games

A connection's seat is its place in the lobby: outside of all rooms, or in a room as member,
admin or player. A request moves one seat; each kind of move says what it found and what it
did to the rooms and the games. -/

namespace TriviaServer

open Interaction
open Program (Only)

/-! ## Seats -/

inductive Seat where
  | outside
  | member (room : String) (user : LoggedUser)
  | admin (room : String) (user : LoggedUser)
  | player (game : String) (user : LoggedUser)
  deriving DecidableEq

def Handler.seat : Handler → Seat
  | .roomMember roomUuid _ user => .member roomUuid user
  | .roomAdmin room user => .admin room user
  | .game g user => .player g user
  | _ => .outside

/-! ## Traces of calls -/

/-- The room uuids generated by some calls. -/
def uuidsOf (t : List (Event operations)) : List String :=
  t.filterMap fun e =>
    match e with
    | ⟨.room .generateRoomUUID, uuid⟩ => some uuid
    | _ => none

/-- An operation that generates no uuid, starts no game and books nothing. -/
def Op.Silent : Op → Prop
  | .room .generateRoomUUID => False
  | .game (.pushGame ..) => False
  | .game (.submitting ..) => False
  | _ => True

def Silent (t : List (Event operations)) : Prop := ∀ e ∈ t, e.1.Silent

@[simp] theorem silent_nil : Silent [] := by simp [Silent]

@[simp] theorem silent_cons {o : Op} {r : o.Answer} {t : List (Event operations)} :
    Silent (event o r :: t) ↔ o.Silent ∧ Silent t := by simp [Silent]

@[simp] theorem silent_append {t t' : List (Event operations)} :
    Silent (t ++ t') ↔ Silent t ∧ Silent t' := by
  simp only [Silent, List.mem_append, or_imp, forall_and]

/-- As silent, but for the bookings in one game. -/
def SilentBut (g : String) (t : List (Event operations)) : Prop :=
  ∀ e ∈ t, e.1.Silent ∨ ∃ user data, e.1 = .game (.submitting g user data)

/-! ## Moves -/

/-- A player is removed from a game: some `removePlayerFromGame` from a state with the same
games, which makes all the bookings and the last clock readings of the calls. -/
structure Leaves (s : Managers) (g : String) (user : LoggedUser) (gm : Game)
    (t : List (Event operations)) (s' : Managers) : Prop where
  found : s.game? g = some gm
  departure : ∃ s₀ k₁ k₂ k₃ players db t₀ r, s₀.games = s.games ∧ s.clock ≤ s₀.clock ∧
    Departure true g user s₀ gm k₁ k₂ k₃ players db t₀ r ∧
    s'.games = (s₀.depart g user gm k₃ players db).games ∧ s'.clock = k₃ ∧
    (∀ p, submissionsOf g p t = submissionsOf g p t₀) ∧ readingsOf t₀ <:+ readingsOf t
  silent : SilentBut g t

/-- The rooms differ at one uuid only, where `room` is what is there now. -/
def RoomChanges (s s' : Managers) (uuid : String) (room : Option Room) : Prop :=
  ∀ uuid' : String, s'.rooms[uuid']? = if uuid' = uuid then room else s.rooms[uuid']?

/-- The moves of a seat. -/
inductive Move (s : Managers) (t : List (Event operations)) (s' : Managers) : Seat → Seat → Prop
  | stay {x} : s'.rooms = s.rooms → s'.games = s.games → Silent t → Move s t s' x x
  | created {uuid user room} : s.rooms[uuid]? = none → room.users = [user] →
      room.metadata.uuid = uuid → room.metadata.isActive = false →
      1 < room.metadata.maxPlayers.toNat → RoomChanges s s' uuid (some room) →
      s'.games = s.games →
      t = [event (.room .generateRoomUUID) uuid, event (.room (.emplaceRoom uuid room)) ()] →
      Move s t s' .outside (.admin uuid user)
  | joined {uuid user room room'} : s.rooms[uuid]? = some room → room.addUser user = .ok room' →
      RoomChanges s s' uuid (some room') → s'.games = s.games → Silent t →
      Move s t s' .outside (.member uuid user)
  | dismissed {uuid user} : s.rooms[uuid]? = none → s'.rooms = s.rooms → s'.games = s.games →
      Silent t → Move s t s' (.member uuid user) .outside
  | left {uuid user room} : s.rooms[uuid]? = some room → room.metadata.isActive = false →
      RoomChanges s s' uuid (some (room.removeUser user)) → s'.games = s.games → Silent t →
      Move s t s' (.member uuid user) .outside
  | deserted {uuid user room gm} : s.rooms[uuid]? = some room → room.metadata.isActive = true →
      Leaves s uuid user gm t s' → RoomChanges s s' uuid (some (room.removeUser user)) →
      Move s t s' (.member uuid user) .outside
  | entered {uuid user room gm} : s.rooms[uuid]? = some room → room.metadata.isActive = true →
      s.game? uuid = some gm → s'.rooms = s.rooms → s'.games = s.games → Silent t →
      Move s t s' (.member uuid user) (.player uuid user)
  | closed {uuid user room} : s.rooms[uuid]? = some room → RoomChanges s s' uuid none →
      s'.games = s.games → Silent t → Move s t s' (.admin uuid user) .outside
  | started {uuid user room questions time now} : s.rooms[uuid]? = some room →
      RoomChanges s s' uuid (some (room.setIsActive true)) →
      s'.games = s.games ++ [.new questions room.users uuid time now] → s.clock ≤ now →
      (∃ t₁ t₂, t = t₁ ++ event (.game (.pushGame questions room.users uuid time)) () :: t₂ ∧
        Silent t₁ ∧ Silent t₂) → Move s t s' (.admin uuid user) (.player uuid user)
  | answered {g user gm gm' answerIndex questionIndex answerTime answer} :
      s.game? g = some gm →
      gm.recordAnswer user answerIndex questionIndex answerTime = .ok (answer, gm') →
      s'.rooms = s.rooms → s'.games = (s.setGame g gm').games → Silent t →
      (∃ x, event (.game (.checkAnswer g answerIndex questionIndex)) (.ok x) ∈ t) →
      Move s t s' (.player g user) (.player g user)
  | quit {g user gm room} : s.rooms[g]? = some room → Leaves s g user gm t s' →
      RoomChanges s s' g (if (room.removeUser user).users.isEmpty then none
        else some (room.removeUser user)) →
      Move s t s' (.player g user) .outside
  | unbooked {g user gm} : Leaves s g user gm t s' →
      user.username ∉ s.database.accounts.map Prod.snd → s'.rooms = s.rooms →
      Move s t s' (.player g user) .outside

/-- What a fault of a request from a seat says about the state before it. -/
def Blame (s : Managers) (x : Seat) : Fault → Prop
  | .gameNotFound => ∃ uuid room, s.rooms[uuid]? = some room ∧ room.metadata.isActive = true ∧
      s.game? uuid = none
  | .erasedGame => ∃ g user, x = .player g user ∧ s.game? g = none
  | .playerNotFound => ∃ g user gm, s.game? g = some gm ∧ gm.players[user]? = none ∧
      (x = .player g user ∨ (x = .member g user ∧ gm.isFinished s.clock = false))
  | .roomNotFound => ∃ g user, x = .player g user ∧ s.rooms[g]? = none
  | .erasedRoom => ∃ uuid user, x = .admin uuid user ∧ s.rooms[uuid]? = none
  | .emptyRoomState => ∃ uuid user, x = .admin uuid user ∧ s.rooms[uuid]? = none
  | _ => True

/-- A request moves the seat it comes from. -/
def Moves (s : Managers) (x : Seat) (p : Action RequestResult) : Prop :=
  wp (machine true) (Blame s x) p (fun t r s' => Move s t s' x r.handler.seat) s

/-! ## Requests apart from the rooms and games -/

/-- No operation on a room or a game; an exception only if `E` admits it. -/
def Op.Apart (E : Fault → Prop) : Op → Prop
  | .login _ => True
  | .database _ => True
  | .external (.throw e) => E e
  | .external _ => True
  | _ => False

section Apart

variable {E : Fault → Prop} {s : Managers} {x : Seat}

theorem Op.Apart.silent {o : Op} (ho : o.Apart E) : o.Silent := by
  cases o with
  | room o => exact ho.elim
  | game o => exact ho.elim
  | _ => trivial

theorem Op.Quiet.apart {o : Op} (ho : o.Quiet E) : o.Apart E := by
  cases o with
  | login o => trivial
  | database o => trivial
  | external o =>
      cases o with
      | throw e => exact ho
      | _ => trivial
  | room o => exact ho.elim
  | game o => exact ho.elim

theorem apart_of_quiet {α : Type} {p : Action α} (h : p.Only (Op.Quiet E)) :
    p.Only (Op.Apart E) :=
  h.mono fun _ ho => ho.apart

theorem Op.Apart.step {o : Op} (ho : o.Apart E) {d : Bool} {s s' : Managers} {r : o.Answer}
    (h : (machine d).Step o s r s') : s'.rooms = s.rooms ∧ s'.games = s.games := by
  cases o with
  | login o =>
      have hx := LoginOp.step_eq h
      cases o with
      | tryLogin name =>
          simp only [LoginOp.exec] at hx
          split_ifs at hx <;> cases hx <;> exact ⟨rfl, rfl⟩
      | logout name =>
          cases hx
          exact ⟨rfl, rfl⟩
  | database o =>
      obtain ⟨_, db, -, -, rfl⟩ := DbOp.step_eq h
      exact ⟨rfl, rfl⟩
  | external o =>
      rw [ExternalOp.step_eq h]
      exact ⟨rfl, rfl⟩
  | room o => exact ho.elim
  | game o => exact ho.elim

theorem Op.Apart.fault {o : Op} (ho : o.Apart E) {d : Bool} {s : Managers} {e : Fault}
    (h : (machine d).Fault o s e) : E e := by
  obtain ⟨c, -, hx⟩ := h
  cases o with
  | login o => cases hx
  | database o => cases hx
  | external o =>
      cases o with
      | throw fault =>
          cases hx
          exact ho
      | _ => cases hx
  | room o => exact ho.elim
  | game o => exact ho.elim

/-- Only such operations, and a handler of the same seat. -/
def Stays (E : Fault → Prop) (x : Seat) (p : Action RequestResult) : Prop :=
  p.OnlyThen (Op.Apart E) fun r => r.handler.seat = x

theorem Stays.moves {p : Action RequestResult} (hp : Stays (Blame s x) x p) : Moves s x p := by
  have hwp := hp.wp_rel (M := machine true) (E := Blame s x)
    (R := fun s s' => s'.rooms = s.rooms ∧ s'.games = s.games) (fun _ => ⟨rfl, rfl⟩)
    (fun _ _ _ h h' => ⟨h'.1.trans h.1, h'.2.trans h.2⟩) (fun _ _ _ _ ho hs => ho.step hs)
    (fun _ _ _ ho hf => ho.fault hf) s
  refine wp_imp hwp ?_
  rintro t r s' ⟨⟨hrooms, hgames⟩, hseat, ht⟩
  rw [hseat]
  exact .stay hrooms hgames fun e he => (ht e he).silent

theorem stays_bind {α : Type} {p : Action α} {f : α → Action RequestResult}
    (hp : p.Only (Op.Apart E)) (hf : ∀ a, Stays E x (f a)) : Stays E x (p >>= f) :=
  Program.OnlyThen.bind hp hf

theorem stays_reads {α : Type} {p : Action α} {f : α → Action RequestResult}
    (hp : p.Only (Op.Reads E)) (hf : ∀ a, Stays E x (f a)) : Stays E x (p >>= f) :=
  stays_bind (apart_of_quiet (quiet_of_reads hp)) hf

theorem stays_pure {r : RequestResult} (h : r.handler.seat = x) : Stays E x (pure r) := h

theorem apart_login (o : LoginOp) : (Action.login o).Only (Op.Apart E) :=
  ⟨trivial, fun _ => trivial⟩

theorem apart_external {o : ExternalOp} (ho : (Op.external o).Apart E) :
    (Action.external o).Only (Op.Apart E) :=
  ⟨ho, fun _ => trivial⟩

theorem apart_login_section (username password : String) :
    (LoginManager.login username password).Only (Op.Apart E) := by
  refine Only.bind (apart_of_quiet (quiet_of_reads
    (SqliteDatabase.doesUserExist_reads username))) fun exist => ?_
  rcases exist with e | _ | _
  · trivial
  · trivial
  · refine Only.bind (apart_of_quiet (quiet_of_reads ?_)) fun matched => ?_
    · refine (SqliteDatabase.getUser_reads username).bind fun user => ?_
      cases user <;> trivial
    · rcases matched with e | _ | _
      · trivial
      · trivial
      · refine Only.bind (apart_login _) fun entered => ?_
        cases entered <;> trivial

theorem apart_addUser (userName password email address phoneNumber birthday : String)
    (avatarColor : AvatarColor) :
    (SqliteDatabase.addUser userName password email address phoneNumber birthday
      avatarColor).Only (Op.Apart E) := by
  refine Only.bind (apart_external trivial) fun memberSince => ?_
  refine Only.bind (apart_of_quiet (quiet_of_reads
    (SqliteDatabase.doesUserExist_reads userName))) fun exist => ?_
  rcases exist with e | _ | _
  · trivial
  · refine Only.bind (apart_of_quiet (quiet_of_reads
      (SqliteDatabase.doesEmailExist_reads email))) fun exist => ?_
    rcases exist with e | _ | _
    · trivial
    · refine only_db_bind trivial fun inserted => ?_
      cases inserted <;> trivial
    · trivial
  · trivial

theorem apart_signup (P : Platform)
    (username password email address phoneNumber birthday : String) :
    (LoginManager.signup P username password email address phoneNumber birthday).Only
      (Op.Apart E) := by
  unfold LoginManager.signup
  dsimp only
  split_ifs
  · trivial
  · refine Only.bind (apart_external trivial) fun avatarColor => ?_
    refine Only.bind (apart_addUser _ _ _ _ _ _ _) fun added => ?_
    cases added with
    | none => exact apart_login_section username password
    | some e =>
        dsimp only
        split_ifs <;> trivial

theorem apart_removeUserUnverifiedUser (username : String) :
    (UsersManager.removeUserUnverifiedUser username).Only (Op.Apart E) := by
  refine Only.bind (Only.bind (apart_of_quiet (quiet_of_reads
    (SqliteDatabase.getUser_reads username))) fun user => ?_) fun _ => trivial
  cases user with
  | error e => trivial
  | ok user =>
      refine only_db_bind trivial fun removed => ?_
      cases removed <;> trivial

end Apart

section Login

variable {E : Fault → Prop} (hE : E .jsonType) {P : Platform}

include hE

theorem LoginRequestHandler.handleRequest_stays (request : RequestInfo) :
    Stays E .outside (handleRequest P request) := by
  have hlogin : Stays E .outside (login P request) := by
    refine stays_reads (lift_reads (ensures_loginRequest hE _)) fun request => ?_
    cases request with
    | error e => exact stays_pure rfl
    | ok request =>
        refine stays_bind (apart_login_section _ _) fun res => ?_
        rcases res with e | ⟨_ | _, message⟩ <;> exact stays_pure rfl
  have hsignup : Stays E .outside (signup P request) := by
    refine stays_reads (lift_reads (ensures_signupRequest hE _)) fun request => ?_
    cases request with
    | error e => exact stays_pure rfl
    | ok request =>
        refine stays_bind (apart_signup P _ _ _ _ _ _) fun res => ?_
        rcases res with e | ⟨_ | _, message⟩
        · exact stays_pure rfl
        · exact stays_pure rfl
        · refine stays_bind (apart_external trivial) fun code => ?_
          refine stays_bind (apart_external trivial) fun sent => ?_
          cases sent with
          | none => exact stays_pure rfl
          | some e =>
              exact stays_bind (apart_removeUserUnverifiedUser _) fun _ =>
                stays_bind (apart_login _) fun _ => stays_pure rfl
  have hforgot : Stays E .outside (forgotPassword P request) := by
    refine stays_reads (lift_reads (ensures_forgotPasswordRequest hE _)) fun request => ?_
    cases request with
    | error e => exact stays_pure rfl
    | ok request =>
        refine stays_reads (LoginManager.forgotPassword_reads _) fun status => ?_
        cases status <;> exact stays_pure rfl
  unfold handleRequest
  split_ifs
  · exact stays_pure rfl
  · split
    · exact hlogin
    · exact hsignup
    · exact hforgot
    · exact stays_pure rfl
    · exact stays_pure rfl

theorem VerificationRequestHandler.handleRequest_stays (tries : UInt32)
    (email code username : String) (request : RequestInfo) :
    Stays E .outside (handleRequest P tries email code username request) := by
  have habort : ∀ {r : RequestResult}, r.handler.seat = .outside →
      Stays E .outside (UsersManager.removeUserUnverifiedUser username >>= fun _ =>
        LoginManager.logout username >>= fun _ => pure r) := fun hr =>
    stays_bind (apart_removeUserUnverifiedUser _) fun _ =>
      stays_bind (apart_login _) fun _ => stays_pure hr
  have hsubmit : Stays E .outside
      (submitVerificationCode P tries email code username request) := by
    refine stays_reads (lift_reads (ensures_submitVerificationCodeRequest hE _))
      fun request => ?_
    cases request with
    | error e => exact stays_pure rfl
    | ok request =>
        dsimp only
        split_ifs
        · exact stays_pure rfl
        · exact habort rfl
        · exact stays_pure rfl
  have hresend : Stays E .outside (resendVerificationCode tries email code username) := by
    refine stays_bind (apart_external trivial) fun code => ?_
    refine stays_bind (apart_external trivial) fun sent => ?_
    cases sent <;> exact stays_pure rfl
  unfold handleRequest
  dsimp only
  split_ifs
  · exact stays_pure rfl
  · split
    · exact hsubmit
    · exact hresend
    · exact habort rfl
    · exact stays_pure rfl

end Login

end TriviaServer
