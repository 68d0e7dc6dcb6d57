import TriviaServer.Verification.Accounts
import TriviaServer.Verification.Reading
import TriviaServer.Verification.Replays

/-! # What an error answer leaves behind

Every handler but one gives its error answers after operations that change no store. The
exception is the signup, which inserts the account first. -/

namespace TriviaServer

open Interaction
open Program (Returns Guarded only_call)

variable {P : Platform}

/-! ## Operations that change no store -/

/-- The stores an error answer must not have changed. -/
structure SameStores (s s' : Managers) : Prop where
  loggedUsers : s'.loggedUsers = s.loggedUsers
  rooms : s'.rooms = s.rooms
  games : s'.games = s.games
  users : s'.database.users = s.database.users
  statistics : s'.database.statistics = s.database.statistics

theorem SameStores.refl (s : Managers) : SameStores s s := ⟨rfl, rfl, rfl, rfl, rfl⟩

theorem SameStores.trans {a b c : Managers} (h : SameStores a b) (h' : SameStores b c) :
    SameStores a c :=
  ⟨h'.loggedUsers.trans h.loggedUsers, h'.rooms.trans h.rooms, h'.games.trans h.games,
    h'.users.trans h.users, h'.statistics.trans h.statistics⟩

/-- Reading the tables, a room or a game, the clock, and everything outside the server. -/
def Op.Keeps : Op → Prop
  | .login _ => False
  | .database o => (Op.database o).Reads fun _ => True
  | .external _ => True
  | .room o =>
      match o with
      | .emplaceRoom .. | .deleteRoom _ | .removeUserAt .. | .eraseRoom _ | .addUser ..
      | .removeUser .. | .setIsActive .. => False
      | _ => True
  | .game o =>
      match o with
      | .pushGame .. | .punishPlayer .. | .removePlayer .. | .markUserResultsAsSubmittedToDB ..
      | .eraseGame _ | .recordAnswer .. => False
      | _ => True

theorem keeps_of_reads {α : Type} {p : Action α} (h : p.Only (Op.Reads fun _ => True)) :
    p.Only Op.Keeps := by
  refine h.mono fun o ho => ?_
  cases o with
  | database o => exact ho
  | external o => trivial
  | login o => exact ho.elim
  | room o => exact ho.elim
  | game o => exact ho.elim

theorem DbOp.exec_reads {o : DbOp} (ho : (Op.database o).Reads fun _ => True) {c : Choice}
    {db db' : Database} {r : o.Answer} (h : o.exec c db = (r, db')) :
    db'.users = db.users ∧ db'.statistics = db.statistics := by
  rcases DbOp.exec_cases h with ⟨-, -, rfl⟩ | ⟨-, h⟩
  · exact ⟨rfl, rfl⟩
  · cases o with
    | insertUser row => exact ho.elim
    | removeUser id => exact ho.elim
    | updateUser => exact ho.elim
    | updateStatistics row => exact ho.elim
    | _ =>
        cases h
        exact ⟨rfl, rfl⟩

theorem Op.Keeps.step {o : Op} (ho : o.Keeps) {d : Bool} {s s' : Managers} {r : o.Answer}
    (h : (machine d).Step o s r s') : SameStores s s' := by
  cases o with
  | login o => exact ho.elim
  | external o => exact ExternalOp.step_eq h ▸ SameStores.refl s
  | database o =>
      obtain ⟨c, db, -, hx, rfl⟩ := DbOp.step_eq h
      obtain ⟨husers, hstatistics⟩ := DbOp.exec_reads ho hx
      exact ⟨rfl, rfl, rfl, husers, hstatistics⟩
  | room o =>
      obtain ⟨c, -, hx⟩ := h
      cases o with
      | emplaceRoom | deleteRoom | removeUserAt | eraseRoom | addUser | removeUser
      | setIsActive => exact ho.elim
      | getAllUsersAt room => exact getAllUsersAt_eq (c := c) hx ▸ SameStores.refl s
      | getAllUsers room | getMetadata room => exact readRoom_eq hx ▸ SameStores.refl s
      | _ =>
          cases hx
          exact SameStores.refl s
  | game o =>
      have hframe := GameOp.frame h
      obtain ⟨c, -, hx⟩ := h
      have hgames : s'.games = s.games := by
        cases o with
        | pushGame | punishPlayer | removePlayer | markUserResultsAsSubmittedToDB | eraseGame
        | recordAnswer => exact ho.elim
        | getPlayersResults | getOnlinePlayers => rw [readGame_eq hx]
        | isFinished | getCurrentQuestion | checkAnswer => exact readGame_eq hx ▸ rfl
        | getGameById id =>
            simp only [Op.exec, GameOp.exec] at hx
            split_ifs at hx
            cases hx
            rfl
        | sleepUntilReleased =>
            obtain ⟨k, -, rfl⟩ := sleepUntilReleased_eq hx
            rfl
        | submitting =>
            cases hx
            rfl
      rw [hframe.1]
      exact ⟨rfl, rfl, hgames, rfl, rfl⟩

/-! ## The handlers but for the signup -/

/-- An insert of an account that succeeded. -/
def insertsAccount : Event operations → Bool
  | ⟨.database (.insertUser _), id⟩ => id.isSome
  | _ => false

/-- A database call that threw. -/
def failsCall : Event operations → Bool
  | ⟨.database _, r⟩ => r.isNone
  | _ => false

/-- A call that changes no store: what it does never would, or it failed. -/
def Keeping (e : Event operations) : Prop := e.1.Keeps ∨ failsCall e = true

theorem only_keeping {α : Type} {p : Action α} (hp : p.Only Op.Keeps) :
    p.Only fun o => ∀ r, Keeping ⟨o, r⟩ :=
  hp.mono fun _ ho _ => .inl ho

theorem Keeping.step {o : Op} {r : o.Answer} (ho : Keeping ⟨o, r⟩) {d : Bool} {s s' : Managers}
    (h : (machine d).Step o s r s') : SameStores s s' := by
  rcases ho with ho | hfails
  · exact ho.step h
  · unfold failsCall at hfails
    split at hfails
    · next heq =>
        cases heq
        obtain ⟨c, -, hx⟩ := h
        cases hx
        have hdb := DbOp.exec_none (Prod.ext (Option.isNone_iff_eq_none.mp hfails) rfl)
        exact ⟨rfl, rfl, rfl, congrArg Database.users hdb, congrArg Database.statistics hdb⟩
    · cases hfails

/-- Whether the frame sent is an `ErrorResponse`. -/
def RequestResult.isError (r : RequestResult) : Bool := r.buffer.any Response.isError

/-- The answer is no error, or the handler stays and no operation has changed a store. -/
def Careful (h : Handler) (p : Action RequestResult) : Prop :=
  p.Guarded Keeping (fun r => r.isError = false) fun r => r.handler = h

theorem careful_error {h : Handler} (e : Error) : Careful h (pure (e.toRequestResult h)) :=
  .inr rfl

theorem careful_answer {h : Handler} {r : RequestResult} (hr : r.isError = false) :
    Careful h (pure r) :=
  .inl hr

theorem Careful.of_only {α : Type} {h : Handler} {p : Action α} {f : α → Action RequestResult}
    (hp : p.Only Op.Keeps) (hf : ∀ a, Careful h (f a)) : Careful h (p >>= f) :=
  Guarded.bind (only_keeping hp) hf

/-- The operations after which no error is answered. -/
theorem Careful.of_returns {h : Handler} {p : Action RequestResult}
    (hp : p.Returns fun r => r.isError = false) : Careful h p :=
  Returns.guarded hp

theorem careful_lift {α : Type} {h : Handler} {x : Except Fault α}
    {f : α → Action RequestResult} (hf : ∀ a, Careful h (f a)) :
    Careful h (Action.lift x >>= f) := by
  refine .of_only (keeps_of_reads (lift_reads ?_)) hf
  cases x <;> trivial

theorem careful_reads {α : Type} {h : Handler} {p : Action α} {f : α → Action RequestResult}
    (hp : p.Only (Op.Reads fun _ => True)) (hf : ∀ a, Careful h (f a)) : Careful h (p >>= f) :=
  .of_only (keeps_of_reads hp) hf

theorem careful_room {h : Handler} {o : RoomOp} {f : o.Answer → Action RequestResult}
    (ho : (Op.room o).Keeps) (hf : ∀ a, Careful h (f a)) :
    Careful h (Action.room o >>= f) :=
  .of_only (only_call (S := operations) ho) hf

theorem careful_game {h : Handler} {o : GameOp} {f : o.Answer → Action RequestResult}
    (ho : (Op.game o).Keeps) (hf : ∀ a, Careful h (f a)) :
    Careful h (Action.game o >>= f) :=
  .of_only (only_call (S := operations) ho) hf

theorem careful_throw {h : Handler} (fault : Fault) : Careful h (Action.throw fault) :=
  fun r => nomatch r

theorem LoginManager.login_careful {h : Handler} (username password : String)
    {f : Result (Bool × String) → Action RequestResult}
    (hok : ∀ x, (f (.ok x)).Returns fun r => r.isError = false)
    (herror : ∀ e, Careful h (f (.error e))) :
    Careful h (LoginManager.login username password >>= f) := by
  unfold LoginManager.login
  simp only [bind_assoc]
  refine careful_reads (SqliteDatabase.doesUserExist_reads username) fun exist => ?_
  rcases exist with e | _ | _
  · exact herror e
  · exact .of_returns (hok _)
  · simp only [bind_assoc]
    refine careful_reads (SqliteDatabase.doesPasswordMatch_reads username password)
      fun passwordMatch => ?_
    rcases passwordMatch with e | _ | _
    · exact herror e
    · exact .of_returns (hok _)
    · refine .of_returns fun loggedIn => ?_
      cases loggedIn <;> exact hok _

namespace LoginRequestHandler

theorem login_careful (request : RequestInfo) : Careful .login (login P request) := by
  refine careful_lift fun request => ?_
  cases request with
  | error e => exact careful_error e
  | ok request =>
      refine LoginManager.login_careful _ _ (fun x => ?_) fun e => careful_error e
      obtain ⟨_ | _, message⟩ := x <;> rfl

theorem forgotPassword_careful (request : RequestInfo) :
    Careful .login (forgotPassword P request) := by
  refine careful_lift fun request => ?_
  cases request with
  | error e => exact careful_error e
  | ok request =>
      refine careful_reads (LoginManager.forgotPassword_reads request.email) fun sent => ?_
      cases sent with
      | error e => exact careful_error e
      | ok status => exact careful_answer rfl

end LoginRequestHandler

namespace VerificationRequestHandler

variable (tries : UInt32) (email code username : String)

theorem submitVerificationCode_careful (request : RequestInfo) :
    Careful (.verification tries email code username)
      (submitVerificationCode P tries email code username request) := by
  refine careful_lift fun request => ?_
  cases request with
  | error e => exact careful_error e
  | ok request =>
      refine .of_returns ?_
      dsimp only
      split_ifs
      · rfl
      · exact Returns.bind fun _ => Returns.bind fun _ => rfl
      · rfl

theorem resendVerificationCode_careful :
    Careful (.verification tries email code username)
      (resendVerificationCode tries email code username) := by
  refine .of_returns fun code' => fun sent => ?_
  cases sent <;> rfl

end VerificationRequestHandler

namespace MenuRequestHandler

variable (user : LoggedUser)

theorem getPlayersInRoom_careful (request : RequestInfo) :
    Careful (.menu user) (getPlayersInRoom P user request) := by
  refine careful_lift fun request => ?_
  cases request with
  | error e => exact careful_error e
  | ok request =>
      refine .of_returns (Returns.bind fun room => ?_)
      cases room with
      | error e => rfl
      | ok room =>
          refine Returns.bind fun users => Returns.bind fun players => ?_
          cases players <;> rfl

theorem getPersonalStatistics_careful :
    Careful (.menu user) (getPersonalStatistics user) := by
  refine careful_reads (StatisticsManager.getUserStatistics_reads user.username) fun stats => ?_
  cases stats with
  | error e => exact careful_error e
  | ok stats => exact careful_answer rfl

theorem getHighScores_careful : Careful (.menu user) (getHighScores user) := by
  refine careful_reads SqliteDatabase.getHighScores_reads fun scores => ?_
  cases scores with
  | error e => exact careful_error e
  | ok scores => exact careful_answer rfl

theorem joinRoom_careful (request : RequestInfo) :
    Careful (.menu user) (joinRoom P user request) := by
  refine careful_lift fun request => ?_
  cases request with
  | error e => exact careful_error e
  | ok request =>
      refine .of_only (p := RoomManager.getRoom request.roomId) ⟨trivial, fun found => ?_⟩
        fun room => ?_
      · cases found <;> trivial
      · cases room with
        | error e => exact careful_error e
        | ok room =>
            refine .of_returns (Returns.bind fun added => ?_)
            cases added with
            | none => exact Returns.bind fun _ => rfl
            | some e => rfl

theorem createRoom_careful (request : RequestInfo) :
    Careful (.menu user) (createRoom P user request) := by
  refine careful_lift fun request => ?_
  cases request with
  | error e => exact careful_error e
  | ok request =>
      refine .of_returns ?_
      dsimp only
      split_ifs
      · rfl
      · exact Returns.bind fun _ => rfl

/-- A failing update changes no row. -/
theorem updateUserData_careful (request : RequestInfo) :
    Careful (.menu user) (updateUserData P user request) := by
  refine careful_lift fun userData => ?_
  cases userData with
  | error e => exact careful_error e
  | ok userData =>
      dsimp only
      split_ifs
      · exact careful_answer rfl
      · unfold UsersManager.updateUserData SqliteDatabase.updateUser
        cases colorNameToColor userData.avatarColor with
        | none => exact careful_error _
        | some color =>
            intro updated
            cases updated with
            | none => exact .inl ⟨.inr rfl, careful_error _⟩
            | some _ => exact .inr rfl

theorem getUserData_careful : Careful (.menu user) (getUserData user) := by
  refine careful_reads (SqliteDatabase.getUserData_reads user.username) fun userData => ?_
  cases userData with
  | error e => exact careful_error e
  | ok userData =>
      refine careful_reads (StatisticsManager.getUserStatistics_reads user.username)
        fun stats => ?_
      cases stats with
      | error e => exact careful_error e
      | ok stats => exact careful_answer rfl

end MenuRequestHandler

namespace RoomMemberRequestHandler

variable (roomUuid roomName : String) (user : LoggedUser)

theorem leaveRoom_careful :
    Careful (.roomMember roomUuid roomName user) (leaveRoom roomUuid roomName user) := by
  refine .of_returns (Returns.bind fun roomState => ?_)
  cases roomState with
  | none => rfl
  | some roomState =>
      dsimp only
      split_ifs
      · exact Returns.bind fun _ => Returns.bind fun _ => rfl
      · exact Returns.bind fun _ => rfl

theorem getRoomState_careful :
    Careful (.roomMember roomUuid roomName user) (getRoomState roomUuid roomName user) := by
  refine careful_room (o := .getRoomState roomUuid) trivial fun roomState => ?_
  cases roomState with
  | none => exact careful_answer rfl
  | some roomState =>
      refine careful_reads (UsersManager.transformLoggedUsersToPlayers_reads roomState.users)
        fun players => ?_
      cases players with
      | error e => exact careful_error e
      | ok players =>
          refine .of_returns ?_
          dsimp only
          split_ifs
          · exact Returns.bind fun _ => rfl
          · rfl

end RoomMemberRequestHandler

namespace GameManager

theorem createGame_careful {h : Handler} (room : String) {f : Result String → Action RequestResult}
    (hok : ∀ x, (f (.ok x)).Returns fun r => r.isError = false)
    (herror : ∀ e, Careful h (f (.error e))) : Careful h (createGame room >>= f) := by
  unfold createGame
  simp only [bind_assoc]
  refine careful_room trivial fun metadata => ?_
  refine careful_reads (SqliteDatabase.getQuestions_reads _) fun questions => ?_
  cases questions with
  | error e => exact herror e
  | ok questions =>
      simp only [bind_assoc]
      refine careful_room trivial fun metadata => ?_
      split_ifs
      · exact herror _
      · exact .of_returns (by
          simp only [bind_assoc]
          exact Returns.bind fun _ => Returns.bind fun _ => Returns.bind fun _ =>
            Returns.bind fun _ => hok _)

end GameManager

namespace RoomAdminRequestHandler

variable (room : String) (user : LoggedUser)

theorem startGame_careful : Careful (.roomAdmin room user) (startGame room user) := by
  refine careful_room trivial fun users => ?_
  split_ifs
  · exact careful_error _
  · exact GameManager.createGame_careful room (fun _ => Returns.bind fun _ => rfl)
      fun e => careful_error e

theorem getRoomState_careful : Careful (.roomAdmin room user) (getRoomState room user) := by
  refine careful_room trivial fun metadata => ?_
  refine careful_room (o := .getRoomState metadata.uuid) trivial fun roomState => ?_
  refine careful_room trivial fun users => ?_
  refine careful_reads (UsersManager.transformLoggedUsersToPlayers_reads users) fun players => ?_
  cases players with
  | error e => exact careful_error e
  | ok players =>
      cases roomState with
      | none => exact careful_throw _
      | some roomState => exact careful_answer rfl

end RoomAdminRequestHandler

namespace GameRequestHandler

variable (game : String) (user : LoggedUser)

theorem getQuestion_careful : Careful (.game game user) (getQuestion game user) := by
  refine careful_game trivial fun finished => ?_
  cases finished with
  | true => exact careful_error _
  | false => exact careful_game trivial fun question => careful_answer rfl

theorem submitAnswer_careful (request : RequestInfo) :
    Careful (.game game user) (submitAnswer P game user request) := by
  refine careful_lift fun request => ?_
  cases request with
  | error e => exact careful_error e
  | ok request =>
      refine careful_game trivial fun finished => ?_
      cases finished with
      | true => exact careful_error _
      | false =>
          refine careful_game trivial fun checked => ?_
          cases checked with
          | error e => exact careful_error e
          | ok answer => exact careful_game trivial fun _ => .of_returns fun _ => rfl

theorem getGameResults_careful : Careful (.game game user) (getGameResults game user) := by
  refine careful_game trivial fun finished => ?_
  cases finished with
  | false => exact careful_error _
  | true =>
      refine careful_game trivial fun usersMap => ?_
      refine careful_game trivial fun onlinePlayers => ?_
      refine careful_reads (UsersManager.transformLoggedUsersToPlayers_reads _)
        fun players => ?_
      cases players with
      | error e => exact careful_error e
      | ok players =>
          refine careful_lift fun results => ?_
          split
          · exact careful_throw _
          · exact careful_answer rfl

theorem leaveGame_careful : Careful (.game game user) (leaveGame game user) := by
  refine .of_returns (Returns.bind fun _ => Returns.bind fun submitResult => ?_)
  cases submitResult with
  | none => exact Returns.bind fun _ => rfl
  | some e => rfl

end GameRequestHandler

/-! ## The signup -/

theorem failsCall_external (o : ExternalOp) (r : o.Answer) :
    failsCall (event (.external o) r) = false := rfl

theorem failsCall_login (o : LoginOp) (r : o.Answer) :
    failsCall (event (.login o) r) = false := rfl

/-- Some database call fails after the insert of an account has succeeded. -/
def failsAfterInsert : List (Event operations) → Bool
  | [] => false
  | e :: t => if insertsAccount e then t.any failsCall else failsAfterInsert t

theorem noInsert_keeping {t : List (Event operations)} (h : ∀ e ∈ t, Keeping e) :
    t.any insertsAccount = false := by
  refine List.any_eq_false.mpr fun e he => ?_
  have hk := h e he
  unfold insertsAccount
  split
  · rcases hk with hk | hfails
    · exact hk.elim
    · simpa [failsCall] using hfails
  · simp

theorem failsAfterInsert_append {t t' : List (Event operations)}
    (h : t.any insertsAccount = false) : failsAfterInsert (t ++ t') = failsAfterInsert t' := by
  induction t with
  | nil => rfl
  | cons e t ih =>
      rw [List.any_cons, Bool.or_eq_false_iff] at h
      rw [List.cons_append, failsAfterInsert, h.1]
      exact ih h.2

theorem failsAfterInsert_none {t : List (Event operations)} (h : t.any insertsAccount = false) :
    failsAfterInsert t = false := by
  have happend : failsAfterInsert (t ++ []) = false := failsAfterInsert_append h
  rwa [List.append_nil] at happend

section Inserted

variable {s : Managers} {db : Database} {row : User}

/-- The lookup of the account that has just been inserted. -/
theorem wp_getUser_inserted (h : db.Inserted row s.database)
    {Q : List (Event operations) → Result User → Managers → Prop}
    (hfails : ∀ t e, t.any failsCall = true → Q t (.error e) s)
    (hfound : ∀ t, t.any failsCall = false →
      Q t (.ok { row with id := db.nextUserId }) s) :
    wp (machine false) (fun _ => True) (SqliteDatabase.getUser row.username) Q s := by
  unfold SqliteDatabase.getUser
  rw [wp_bind]
  refine wp_db fun c r db' _ hx => ?_
  rcases DbOp.exec_cases hx with ⟨-, rfl, rfl⟩ | ⟨-, hx⟩
  · exact hfails _ _ rfl
  · simp only [DbOp.apply, h.filter_username, Prod.mk.injEq] at hx
    obtain ⟨rfl, rfl⟩ := hx
    exact hfound _ rfl

/-- After the insert the login throws, is refused, or enters the name. -/
theorem wp_login_inserted (h : db.Inserted row s.database) (password : String)
    {Q : List (Event operations) → Result (Bool × String) → Managers → Prop}
    (hfails : ∀ t e, t.any failsCall = true → Q t (.error e) s)
    (hrefused : ∀ t m, Q t (.ok (false, m)) s)
    (hentered : ∀ t m, t.any failsCall = false →
      (∀ u ∈ s.loggedUsers, u.username ≠ row.username) →
      Q t (.ok (true, m)) { s with loggedUsers := s.loggedUsers ++ [⟨row.username⟩] }) :
    wp (machine false) (fun _ => True) (LoginManager.login row.username password) Q s := by
  unfold LoginManager.login SqliteDatabase.doesUserExist SqliteDatabase.doesPasswordMatch
  simp only [wp_bind, wp_pure]
  refine wp_db fun c r db' _ hx => ?_
  rcases DbOp.exec_cases hx with ⟨-, rfl, rfl⟩ | ⟨-, hx⟩
  · exact hfails _ _ rfl
  · simp only [DbOp.apply, h.filter_username, Prod.mk.injEq] at hx
    obtain ⟨rfl, rfl⟩ := hx
    simp only [catchWith, Except.map, List.map_cons, List.isEmpty_cons, Bool.not_false, wp_bind]
    refine wp_getUser_inserted h (fun t e ht => ?_) fun t ht => ?_
    · exact hfails _ _ (by simp [ht])
    · by_cases hpassword : row.password = password
      · simp only [hpassword, decide_true, wp_pure, wp_bind]
        rw [wp_login]
        by_cases hname : s.loggedUsers.any (·.username = row.username) = true
        · simp only [LoginOp.exec, hname, if_true]
          exact hrefused _ _
        · simp only [LoginOp.exec, hname]
          refine hentered _ _ (by simp [ht, failsCall, event]) fun u hu he => hname ?_
          exact List.any_eq_true.mpr ⟨u, hu, decide_eq_true he⟩
      · simp only [hpassword, decide_false, wp_pure]
        exact hrefused _ _

/-- Removing the account that has just been inserted restores the tables, unless a call fails. -/
theorem wp_removeUser_inserted (h : db.Inserted row s.database)
    {Q : List (Event operations) → Unit → Managers → Prop}
    (hfails : ∀ t, t.any failsCall = true → Q t () s)
    (hremoved : ∀ t, t.any failsCall = false →
      Q t () (s.setDatabase (s.database.removeUser db.nextUserId))) :
    wp (machine false) (fun _ => True) (UsersManager.removeUserUnverifiedUser row.username) Q
      s := by
  unfold UsersManager.removeUserUnverifiedUser SqliteDatabase.removeUser
  simp only [wp_bind, wp_pure]
  refine wp_getUser_inserted h (fun t e ht => ?_) fun t ht => ?_
  · exact hfails _ (by simp [ht])
  · simp only [wp_bind]
    refine wp_db fun c r db' _ hx => ?_
    rcases DbOp.exec_cases hx with ⟨-, rfl, rfl⟩ | ⟨-, hx⟩
    · exact hfails _ (by simp [failsCall, event])
    · simp only [DbOp.apply, Prod.mk.injEq] at hx
      obtain ⟨rfl, rfl⟩ := hx
      exact hremoved _ (by simp [ht, failsCall, event])

end Inserted

theorem filter_snoc_free {l : List LoggedUser} {name : String}
    (h : ∀ u ∈ l, u.username ≠ name) :
    (l ++ [(⟨name⟩ : LoggedUser)]).filter (·.username ≠ name) = l := by
  rw [List.filter_append, List.filter_eq_self.mpr fun u hu => by simpa using h u hu]
  simp

/-- The calls before the insert. -/
theorem wp_before {α : Type} {s₀ s : Managers} {p : Action α} (hp : p.Only Op.Keeps)
    (hs : SameStores s₀ s) {Q : List (Event operations) → α → Managers → Prop}
    (h : ∀ t a s', SameStores s₀ s' → t.any insertsAccount = false → Q t a s') :
    wp (machine false) (fun _ => True) p Q s :=
  wp_imp (hp.wp_rel SameStores.refl (fun _ _ _ => SameStores.trans)
    (fun _ _ _ _ ho hstep => ho.step hstep) (fun _ _ _ _ _ => trivial) s)
    fun t a s' hkept => h t a s' (hs.trans hkept.1)
      (noInsert_keeping fun e he => .inl (hkept.2 e he))

/-- An account is inserted by the last call, or never. -/
theorem wp_addUser {s₀ s : Managers} (hs : SameStores s₀ s)
    (userName password email address phoneNumber birthday : String) (color : AvatarColor)
    {Q : List (Event operations) → Option Error → Managers → Prop}
    (hnone : ∀ t e s', SameStores s₀ s' → t.any insertsAccount = false → Q t (some e) s')
    (hinsert : ∀ t id row s₁ db', SameStores s₀ s₁ → t.any insertsAccount = false →
      row.username = userName → s₁.database.Inserted row db' →
      Q (t ++ [event (.database (.insertUser row)) (some id)]) none (s₁.setDatabase db')) :
    wp (machine false) (fun _ => True)
      (SqliteDatabase.addUser userName password email address phoneNumber birthday color)
      Q s := by
  unfold SqliteDatabase.addUser
  simp only [wp_bind]
  refine wp_before (only_call (S := operations) (o := .external .time) trivial) hs
    fun t₁ time s₁ hs₁ ht₁ => ?_
  refine wp_before (keeps_of_reads (SqliteDatabase.doesUserExist_reads _)) hs₁
    fun t₂ exist s₂ hs₂ ht₂ => ?_
  rcases exist with e | _ | _
  · exact hnone _ _ _ hs₂ (by simp [ht₁, ht₂])
  · simp only [wp_bind]
    refine wp_before (keeps_of_reads (SqliteDatabase.doesEmailExist_reads _)) hs₂
      fun t₃ emailExist s₃ hs₃ ht₃ => ?_
    rcases emailExist with e | _ | _
    · exact hnone _ _ _ hs₃ (by simp [ht₁, ht₂, ht₃])
    · simp only [wp_bind]
      refine wp_db fun c r db' _ hx => ?_
      cases r with
      | none =>
          rw [DbOp.exec_none hx]
          exact hnone _ _ _ hs₃ (by simp [ht₁, ht₂, ht₃, insertsAccount, event])
      | some id =>
          rcases DbOp.exec_cases hx with ⟨-, hr, -⟩ | ⟨-, hx⟩
          · cases hr
          · simp only [DbOp.apply] at hx
            split at hx <;> cases hx
            next hdb =>
              have hQ := hinsert (t₁ ++ (t₂ ++ t₃)) id _ s₃ db' hs₃ (by simp [ht₁, ht₂, ht₃]) rfl
                (Database.insertUser_eq_some hdb).2
              simpa only [wp_pure, List.append_assoc, List.append_nil] using hQ
    · exact hnone _ _ _ hs₃ (by simp [ht₁, ht₂, ht₃])
  · exact hnone _ _ _ hs₂ (by simp [ht₁, ht₂])

/-- The error answers of a signup: what follows the insert decides. -/
def SignupPost (s : Managers) (t : List (Event operations)) (r : RequestResult)
    (s' : Managers) : Prop :=
  r.isError = true → (SameStores s s' ∧ r.handler = .login ↔ failsAfterInsert t = false)

theorem signupPost_error {s s' : Managers} {t : List (Event operations)} (e : Error)
    (h : SameStores s s') (ht : t.any insertsAccount = false) :
    SignupPost s t (e.toRequestResult .login) s' :=
  fun _ => iff_of_true ⟨h, rfl⟩ (failsAfterInsert_none ht)

theorem signupPost_answer {s s' : Managers} {t : List (Event operations)} {r : RequestResult}
    (h : r.isError = false) : SignupPost s t r s' := by
  intro he
  rw [h] at he
  cases he

/-- A failed call behind the insert is why the account stays. -/
theorem signupPost_changed {s s₁ s' : Managers} {t : List (Event operations)} {row : User}
    {db : Database} {r : RequestResult} (hs : SameStores s s₁) (h : s₁.database.Inserted row db)
    (ht : failsAfterInsert t = true) (husers : s'.database.users = db.users) :
    SignupPost s t r s' := by
  intro _
  refine iff_of_false (fun hkept => h.users_ne ?_) (by simp [ht])
  rw [← husers, hkept.1.users, hs.users]

theorem wp_signup (request : RequestInfo) (s : Managers) :
    wp (machine false) (fun _ => True) (LoginRequestHandler.signup P request) (SignupPost s)
      s := by
  unfold LoginRequestHandler.signup LoginManager.signup
  simp only [wp_bind]
  refine wp_before (keeps_of_reads (lift_reads ?_)) (.refl s) fun t₀ request s₀ hs₀ ht₀ => ?_
  · cases JsonDeserializer.deserializeSignupRequest (P.parse request.buffer) <;> trivial
  cases request with
  | error e => exact signupPost_error e hs₀ (by simp [ht₀])
  | ok request =>
      simp only [wp_bind]
      split_ifs
      · exact signupPost_answer rfl
      simp only [wp_bind]
      refine wp_before (only_call (S := operations) (o := .external .getRandomAvatarColor) trivial)
        hs₀ fun t₁ color s₁ hs₁ ht₁ => ?_
      refine wp_addUser hs₁ _ _ _ _ _ _ _ (fun t e s' hs ht => ?_)
        fun t id row s₂ db hs₂ ht hrow h => ?_
      · dsimp only
        split_ifs
        · exact signupPost_answer rfl
        · exact signupPost_error e hs (by simp [ht₀, ht₁, ht])
      · have hbehind : ∀ t', failsAfterInsert (t₀ ++ (t₁ ++ (t ++
            event (.database (.insertUser row)) (some id) :: t'))) = t'.any failsCall := by
          intro t'
          simp only [failsAfterInsert_append, ht₀, ht₁, ht]
          rfl
        simp only [← hrow]
        refine wp_login_inserted h _ (fun t' e hfails => ?_) (fun _ _ => signupPost_answer rfl)
          fun t' m hfails hfree => ?_
        · refine signupPost_changed hs₂ h ?_ rfl
          simp only [List.append_assoc, List.cons_append, List.nil_append, hbehind,
            List.any_append, hfails, Bool.true_or]
        · simp only [wp_bind]
          refine (wp_external _ _).mpr fun c₁ => ?_
          simp only [ExternalOp.exec, ensures_ok]
          refine (wp_external _ _).mpr fun c₂ => ?_
          simp only [ExternalOp.exec, ensures_ok]
          cases hmail : c₂.fails with
          | false =>
              simp only [Bool.false_eq_true, if_false]
              exact signupPost_answer rfl
          | true =>
              simp only [if_true, wp_bind]
              refine wp_removeUser_inserted (s := { s₂.setDatabase db with
                loggedUsers := (s₂.setDatabase db).loggedUsers ++ [⟨row.username⟩] }) h
                (fun t'' hany => ?_) fun t'' hany => ?_
              · unfold LoginManager.logout
                rw [wp_login]
                refine signupPost_changed hs₂ h ?_ rfl
                simp only [List.append_assoc, List.cons_append, List.nil_append, hbehind,
                  List.any_append, List.any_cons, hany, Bool.true_or, Bool.or_true]
              · unfold LoginManager.logout
                rw [wp_login]
                -- the logout takes back exactly the name that the login has entered
                have hfilter := filter_snoc_free hfree
                refine fun _ => iff_of_true ⟨hs₂.trans ⟨hfilter, rfl, rfl, h.removeUser_users,
                  h.removeUser_statistics⟩, rfl⟩ ?_
                simp only [List.append_assoc, List.cons_append, List.nil_append, hbehind,
                  List.any_append, List.any_cons, hany, hfails, failsCall_external,
                  failsCall_login, List.any_nil, Bool.or_false]

/-! ## Every request -/

theorem LoginRequestHandler.handleRequest_careful {request : RequestInfo}
    (hexit : request.requestId ≠ .exit) (hsignup : request.requestId ≠ .signupRequest) :
    Careful .login (handleRequest P request) := by
  unfold handleRequest
  split_ifs
  · exact careful_error _
  · split
    · exact login_careful request
    · next hid => exact absurd hid hsignup
    · exact forgotPassword_careful request
    · next hid => exact absurd hid hexit
    · exact careful_error _

theorem VerificationRequestHandler.handleRequest_careful (tries : UInt32)
    (email code username : String) {request : RequestInfo} (hexit : request.requestId ≠ .exit) :
    Careful (.verification tries email code username)
      (handleRequest P tries email code username request) := by
  unfold handleRequest
  dsimp only
  split_ifs
  · exact careful_error _
  · split
    · exact submitVerificationCode_careful tries email code username request
    · exact resendVerificationCode_careful tries email code username
    · next hid => exact absurd hid hexit
    · exact careful_error _

theorem MenuRequestHandler.handleRequest_careful (user : LoggedUser) {request : RequestInfo}
    (hexit : request.requestId ≠ .exit) : Careful (.menu user) (handleRequest P user request) := by
  unfold handleRequest
  split_ifs
  · exact careful_error _
  · split
    · exact .of_returns fun _ => rfl
    · exact .of_returns (Returns.bind fun _ => Returns.bind fun _ => rfl)
    · exact getPlayersInRoom_careful user request
    · exact getHighScores_careful user
    · exact getPersonalStatistics_careful user
    · exact joinRoom_careful user request
    · exact createRoom_careful user request
    · exact getUserData_careful user
    · exact updateUserData_careful user request
    · next hid => exact absurd hid hexit
    · exact careful_error _

theorem RoomMemberRequestHandler.handleRequest_careful (roomUuid roomName : String)
    (user : LoggedUser) {request : RequestInfo} (hexit : request.requestId ≠ .exit) :
    Careful (.roomMember roomUuid roomName user)
      (handleRequest roomUuid roomName user request) := by
  unfold handleRequest
  dsimp only
  split_ifs
  · exact careful_error _
  · split
    · exact leaveRoom_careful roomUuid roomName user
    · exact getRoomState_careful roomUuid roomName user
    · next hid => exact absurd hid hexit
    · exact careful_answer rfl

theorem RoomAdminRequestHandler.handleRequest_careful (room : String) (user : LoggedUser)
    {request : RequestInfo} (hexit : request.requestId ≠ .exit) :
    Careful (.roomAdmin room user) (handleRequest room user request) := by
  unfold handleRequest
  split_ifs
  · exact careful_error _
  · split
    · exact .of_returns (Returns.bind fun _ => Returns.bind fun _ => rfl)
    · exact startGame_careful room user
    · exact getRoomState_careful room user
    · next hid => exact absurd hid hexit
    · exact careful_error _

theorem GameRequestHandler.handleRequest_careful (game : String) (user : LoggedUser)
    {request : RequestInfo} (hexit : request.requestId ≠ .exit) :
    Careful (.game game user) (handleRequest P game user request) := by
  unfold handleRequest
  split_ifs
  · exact careful_error _
  · split
    · exact leaveGame_careful game user
    · exact getQuestion_careful game user
    · exact submitAnswer_careful game user request
    · exact getGameResults_careful game user
    · next hid => exact absurd hid hexit
    · exact careful_error _

theorem Careful.post {h : Handler} {p : Action RequestResult} (hp : Careful h p)
    {s s' : Managers} {t : List (Event operations)} {r : RequestResult}
    (hx : Exec (machine false) p s t r s') (hr : r.isError = true) :
    SameStores s s' ∧ r.handler = h ↔ failsAfterInsert t = false := by
  rcases hx.of_guarded SameStores.refl (fun _ _ _ => SameStores.trans)
    (fun _ _ _ _ ho hstep => ho.step hstep) hp with hgood | ⟨hh, hs, ht⟩
  · rw [hr] at hgood
    cases hgood
  · exact iff_of_true ⟨hs, hh⟩ (failsAfterInsert_none (noInsert_keeping ht))

/-- An error answer leaves the stores and the connection's handler as they were if and only if
no database call of the request failed after its insert of an account had succeeded. -/
theorem errorAnswer_keeps_iff {h : Handler} {request : RequestInfo} {s s' : Managers}
    {t : List (Event operations)} {r : RequestResult} (hexit : request.requestId ≠ .exit)
    (hx : Exec (machine false) (h.handleRequest P request) s t r s') (hr : r.isError = true) :
    SameStores s s' ∧ r.handler = h ↔ failsAfterInsert t = false := by
  by_cases hsignup : h = .login ∧ request.requestId = .signupRequest
  · obtain ⟨rfl, hid⟩ := hsignup
    have hserve : Handler.login.handleRequest P request =
        LoginRequestHandler.signup P request := by
      simp [Handler.handleRequest, LoginRequestHandler.handleRequest,
        LoginRequestHandler.isRequestRelevant, hid]
    rw [hserve] at hx
    exact hx.of_wp (wp_signup request s) hr
  · refine Careful.post ?_ hx hr
    cases h with
    | login =>
        exact LoginRequestHandler.handleRequest_careful hexit fun hid => hsignup ⟨rfl, hid⟩
    | verification tries email code username =>
        exact VerificationRequestHandler.handleRequest_careful tries email code username hexit
    | menu user => exact MenuRequestHandler.handleRequest_careful user hexit
    | roomMember roomUuid roomName user =>
        exact RoomMemberRequestHandler.handleRequest_careful roomUuid roomName user hexit
    | roomAdmin room user =>
        exact RoomAdminRequestHandler.handleRequest_careful room user hexit
    | game game user => exact GameRequestHandler.handleRequest_careful game user hexit

/-- The calls, the result and the state after a request, with each call's outcome chosen. -/
def handleWith (h : Handler) (request : RequestInfo) (outcomes : List Choice) (s : Managers) :
    Option (List (Event operations) × RequestResult × Managers) :=
  interpreter.run (Op.admits false) (h.handleRequest samplePlatform request) outcomes s

/-- The mail cannot be sent, and every database call succeeds: the signup is undone. -/
theorem errorAnswer_keeps_unsentMail :
    ∃ t r s', Exec (machine false)
        (Handler.login.handleRequest samplePlatform (sampleRequest .signupRequest 2))
        (.init .empty) t r s' ∧ r.isError = true ∧ SameStores (.init .empty) s' ∧
        r.handler = .login := by
  have hrun : ((handleWith .login (sampleRequest .signupRequest 2)
      (List.replicate 9 usual ++ [failing, usual, usual, usual]) (.init .empty)).any fun out =>
        out.2.1.isError && !failsAfterInsert out.1) = true := by decide +kernel
  obtain ⟨⟨t, r, s'⟩, hout, hcheck⟩ := (Option.any_eq_true _ _).mp hrun
  rw [Bool.and_eq_true, Bool.not_eq_true'] at hcheck
  have hx := Interpreter.exec_of_run hout
  have hkeeps := (errorAnswer_keeps_iff (by decide) hx hcheck.1).mpr hcheck.2
  exact ⟨t, r, s', hx, hcheck.1, hkeeps⟩

/-- Every error answer in a run with any outcomes of the calls leaves everything as it was. -/
def ErrorAnswersKeep (P : Platform) : Prop :=
  ∀ database cfg, Service.AtomicReachable (handleClient P) (machine false) (fun _ _ => True)
      (ServerConfig.init database) cfg →
    ∀ c session request t r s', cfg.clients c = .idle session →
      (handleClient P).admits session request = true → request.requestId ≠ .exit →
      Exec (machine false) ((handleClient P).serve session request) cfg.shared t r s' →
      r.isError = true → SameStores cfg.shared s' ∧ r.handler = session.handler

/-- A signup whose login cannot read the tables after the insert: the account stays. -/
theorem not_errorAnswersKeep : ¬ ErrorAnswersKeep samplePlatform := by
  intro hkeep
  have hrun : ((handleWith .login (sampleRequest .signupRequest 2)
      (List.replicate 5 usual ++ [failing]) (.init .empty)).any fun out =>
        out.2.1.isError && !out.2.2.database.users.isEmpty) = true := by decide +kernel
  obtain ⟨⟨t, r, s'⟩, hout, hcheck⟩ := (Option.any_eq_true _ _).mp hrun
  rw [Bool.and_eq_true, Bool.not_eq_true'] at hcheck
  have hconnect : Service.AtomicReachable (handleClient samplePlatform) (machine false)
      (fun _ _ => True) (ServerConfig.init .empty) _ :=
    .single ⟨.connect 0, trivial, .connect (c := 0) rfl⟩
  have hx := Interpreter.exec_of_run hout
  have hkept := hkeep .empty _ hconnect 0 (.waiting .login) (sampleRequest .signupRequest 2) t r s'
    rfl rfl (by decide) hx hcheck.1
  have husers : s'.database.users = [] := hkept.1.users
  rw [husers] at hcheck
  cases hcheck.2

end TriviaServer
