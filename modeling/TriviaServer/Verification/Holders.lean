import TriviaServer.Verification.LoggedNames

/-! # The accounts behind the handlers

In a run of atomic requests the name of every handler has an account: a login enters only a
name that it has just found, and an account is only removed by the connection that holds its
name. -/

namespace TriviaServer

open Interaction
open Program (Only OnlyThen)

variable {P : Platform} {E : Fault → Prop} {s s' : Managers}

/-- The names that have an account. -/
def Managers.names (s : Managers) : List String := s.database.accounts.map Prod.snd

theorem Managers.names_eq (h : s'.database.accounts = s.database.accounts) :
    s'.names = s.names := congrArg (List.map Prod.snd) h

theorem Managers.mem_names {name : String} :
    name ∈ s.names ↔ ∃ user ∈ s.database.users, user.username = name := by
  simp [names, Database.accounts]

/-! ## Operations that keep the accounts -/

/-- Neither an insert nor a removal of an account. -/
def Op.Steady : Op → Prop
  | .database (.insertUser _) => False
  | .database (.removeUser _) => False
  | _ => True

theorem Op.Steady.step {o : Op} (ho : o.Steady) {d : Bool} {r : o.Answer}
    (hs : (machine d).Step o s r s') : s'.database.accounts = s.database.accounts := by
  cases o with
  | login o =>
      have hx := LoginOp.step_eq hs
      cases o with
      | tryLogin name =>
          simp only [LoginOp.exec] at hx
          split_ifs at hx <;> cases hx <;> rfl
      | logout name =>
          cases hx
          rfl
  | room o => rw [RoomOp.frame hs]
  | game o => rw [(GameOp.frame hs).1]
  | external o => rw [ExternalOp.step_eq hs]
  | database o =>
      obtain ⟨c, db, -, hx, rfl⟩ := DbOp.step_eq hs
      refine DbOp.accounts_of_exec (E := fun _ => True) ?_ hx
      cases o with
      | insertUser | removeUser => exact ho.elim
      | _ => trivial

theorem Op.Ordinary.steady {o : Op} (ho : o.Ordinary) : o.Steady := by
  cases o with
  | database o =>
      cases o with
      | insertUser | removeUser => exact ho.elim
      | _ => trivial
  | _ => trivial

theorem steady_of_reads {α : Type} {p : Action α} (hp : p.Only (Op.Reads fun _ => True)) :
    p.Only Op.Steady :=
  (ordinary_of_reads hp).mono fun _ ho => ho.steady

theorem wp_steady {α : Type} {p : Action α} {ψ : α → Prop} (hp : p.OnlyThen Op.Steady ψ)
    {Q : List (Event operations) → α → Managers → Prop}
    (h : ∀ t a s', s'.database.accounts = s.database.accounts → ψ a → Q t a s') :
    wp (machine true) (fun _ => True) p Q s := by
  have hwp := hp.wp_rel (M := machine true) (E := fun _ => True)
    (R := fun s s' => s'.database.accounts = s.database.accounts) (fun _ => rfl)
    (fun _ _ _ h h' => h'.trans h) (fun _ _ _ _ ho hs => ho.step hs) (fun _ _ _ _ _ => trivial) s
  exact wp_imp hwp fun t a s' h' => h t a s' h'.1 h'.2.1

/-! ## Requests -/

/-- What a request from `h` does to the names that have an account: at most the handler's own
one is lost, and the next handler's one is there. -/
structure NamesKept (h : Handler) (s : Managers) (r : RequestResult) (s' : Managers) : Prop where
  others : ∀ name ∈ s.names, h.name ≠ some name → name ∈ s'.names
  own : ∀ name, r.handler.name = some name → name ∈ s'.names

/-- The next handler has the same name, or none. -/
def SameName (h : Handler) (r : RequestResult) : Prop :=
  ∀ name, r.handler.name = some name → h.name = some name

def KeepsNames (s : Managers) (h : Handler) (p : Action RequestResult) : Prop :=
  wp (machine true) (fun _ => True) p (fun _ r s' => NamesKept h s r s') s

section Keeping

variable {h : Handler} (hs : ∀ name, h.name = some name → name ∈ s.names)

include hs

theorem namesKept_same {r : RequestResult}
    (haccounts : s'.database.accounts = s.database.accounts) (hr : SameName h r) :
    NamesKept h s r s' := by
  have hnames := Managers.names_eq haccounts
  exact ⟨fun name hname _ => hnames ▸ hname, fun name hname => hnames ▸ hs name (hr name hname)⟩

theorem keepsNames_steady {p : Action RequestResult} (hp : p.OnlyThen Op.Steady (SameName h)) :
    KeepsNames s h p :=
  wp_steady hp fun _ _ _ haccounts hr => namesKept_same hs haccounts hr

end Keeping

theorem Plays.steady {h : Handler} {user : LoggedUser} (hname : h.name = some user.username)
    {p : Action RequestResult} (hp : Plays user p) : p.OnlyThen Op.Steady (SameName h) := by
  refine hp.mono (fun _ ho => ho.steady) fun r hr name hn => ?_
  cases hh : r.handler <;> rw [hh] at hr hn <;> cases hr <;> rwa [hname]

theorem steady_bind {α : Type} {h : Handler} {p : Action α} {f : α → Action RequestResult}
    (hp : p.Only Op.Steady) (hf : ∀ a, (f a).OnlyThen Op.Steady (SameName h)) :
    (p >>= f).OnlyThen Op.Steady (SameName h) :=
  OnlyThen.bind hp hf

theorem steady_lift {α : Type} {x : Except Fault α} : (Action.lift x).Only Op.Steady :=
  ordinary_lift.mono fun _ ho => ho.steady

theorem steady_logout {h : Handler} {name : String} {p : Action RequestResult}
    (hp : p.OnlyThen Op.Steady (SameName h)) :
    (LoginManager.logout name >>= fun _ => p).OnlyThen Op.Steady (SameName h) :=
  ⟨trivial, fun _ => hp⟩

theorem sameName_self {h : Handler} {r : RequestResult} (hr : r.handler = h) : SameName h r :=
  fun _ hname => hr ▸ hname

theorem sameName_login {h : Handler} {r : RequestResult} (hr : r.handler = .login) :
    SameName h r := by
  intro name hname
  rw [hr] at hname
  cases hname

/-! ### Logged users -/

theorem MenuRequestHandler.updateUserData_steady (user : LoggedUser) (request : RequestInfo) :
    (updateUserData P user request).OnlyThen Op.Steady (SameName (.menu user)) := by
  refine steady_bind steady_lift fun userData => ?_
  cases userData with
  | error e => exact sameName_self rfl
  | ok userData =>
      dsimp only
      split_ifs
      · exact sameName_self rfl
      · refine steady_bind ?_ fun updated => ?_
        · unfold UsersManager.updateUserData SqliteDatabase.updateUser
          cases colorNameToColor userData.avatarColor with
          | none => trivial
          | some color => exact ⟨trivial, fun updated => by cases updated <;> trivial⟩
        · cases updated <;> exact sameName_self rfl

theorem MenuRequestHandler.handleRequest_steady (user : LoggedUser) (request : RequestInfo) :
    (handleRequest P user request).OnlyThen Op.Steady (SameName (.menu user)) := by
  have hplays : ∀ {p : Action RequestResult}, Plays user p →
      p.OnlyThen Op.Steady (SameName (.menu user)) := fun hp => hp.steady rfl
  unfold handleRequest
  split_ifs
  · exact sameName_self rfl
  · split
    · exact steady_logout (sameName_login rfl)
    · exact hplays (getRooms_plays user)
    · exact hplays (getPlayersInRoom_plays user request)
    · exact hplays (getHighScores_plays user)
    · exact hplays (getPersonalStatistics_plays user)
    · exact hplays (joinRoom_plays user request)
    · exact hplays (createRoom_plays user request)
    · exact hplays (getUserData_plays user)
    · exact updateUserData_steady user request
    · exact ⟨trivial, fun _ => sameName_self rfl⟩
    · exact sameName_self rfl

theorem RoomMemberRequestHandler.handleRequest_steady (roomUuid roomName : String)
    (user : LoggedUser) (request : RequestInfo) :
    (handleRequest roomUuid roomName user request).OnlyThen Op.Steady
      (SameName (.roomMember roomUuid roomName user)) := by
  have hplays : ∀ {p : Action RequestResult}, Plays user p →
      p.OnlyThen Op.Steady (SameName (.roomMember roomUuid roomName user)) :=
    fun hp => hp.steady rfl
  unfold handleRequest
  dsimp only
  split_ifs
  · exact sameName_self rfl
  · split
    · exact hplays (leaveRoom_plays roomUuid roomName user)
    · exact hplays (getRoomState_plays roomUuid roomName user)
    · exact steady_logout (hplays (leaveRoom_plays roomUuid roomName user))
    · exact sameName_self rfl

theorem RoomAdminRequestHandler.handleRequest_steady (room : String) (user : LoggedUser)
    (request : RequestInfo) :
    (handleRequest room user request).OnlyThen Op.Steady (SameName (.roomAdmin room user)) := by
  have hplays : ∀ {p : Action RequestResult}, Plays user p →
      p.OnlyThen Op.Steady (SameName (.roomAdmin room user)) := fun hp => hp.steady rfl
  unfold handleRequest
  split_ifs
  · exact sameName_self rfl
  · split
    · exact hplays (closeRoom_plays room user)
    · exact hplays (startGame_plays room user)
    · exact hplays (getRoomState_plays room user)
    · exact steady_logout (hplays (closeRoom_plays room user))
    · exact sameName_self rfl

theorem GameRequestHandler.handleRequest_steady (g : String) (user : LoggedUser)
    (request : RequestInfo) :
    (handleRequest P g user request).OnlyThen Op.Steady (SameName (.game g user)) := by
  have hplays : ∀ {p : Action RequestResult}, Plays user p →
      p.OnlyThen Op.Steady (SameName (.game g user)) := fun hp => hp.steady rfl
  unfold handleRequest
  split_ifs
  · exact sameName_self rfl
  · split
    · exact hplays (leaveGame_plays g user)
    · exact hplays (getQuestion_plays g user)
    · exact hplays (submitAnswer_plays g user request)
    · exact hplays (getGameResults_plays g user)
    · exact steady_logout (hplays (leaveGame_plays g user))
    · exact sameName_self rfl

/-! ### Logging in and signing up -/

theorem wp_doesUserExist {name : String}
    {Q : List (Event operations) → Result Bool → Managers → Prop}
    (h : ∀ t r, (r = .ok true → name ∈ s.names) → (r = .ok false → name ∉ s.names) → Q t r s) :
    wp (machine true) (fun _ => True) (SqliteDatabase.doesUserExist name) Q s := by
  unfold SqliteDatabase.doesUserExist
  simp only [wp_bind, wp_pure]
  refine wp_db fun c r db hc hx => ?_
  rw [DbOp.exec_succeeds rfl hc] at hx
  cases hx
  rw [Managers.setDatabase_self]
  refine h _ _ (fun hr => ?_) fun hr hname => ?_
  · cases hfound : s.database.users.filter (·.username = name) with
    | nil => simp [catchWith, Except.map, hfound] at hr
    | cons user rest =>
        have hmem : user ∈ s.database.users.filter (·.username = name) :=
          hfound ▸ List.mem_cons_self
        obtain ⟨huser, hname⟩ := List.mem_filter.mp hmem
        exact Managers.mem_names.mpr ⟨user, huser, of_decide_eq_true hname⟩
  · obtain ⟨user, huser, rfl⟩ := Managers.mem_names.mp hname
    have hmem : user ∈ s.database.users.filter (·.username = user.username) :=
      List.mem_filter.mpr ⟨huser, decide_eq_true rfl⟩
    cases hfound : s.database.users.filter (·.username = user.username) with
    | nil => simp [hfound] at hmem
    | cons => simp [catchWith, Except.map, hfound] at hr

theorem wp_login_names {username password : String}
    {Q : List (Event operations) → Result (Bool × String) → Managers → Prop}
    (h : ∀ t r s', s'.database.accounts = s.database.accounts →
      (∀ message, r = .ok (true, message) → username ∈ s.names) → Q t r s') :
    wp (machine true) (fun _ => True) (LoginManager.login username password) Q s := by
  unfold LoginManager.login
  rw [wp_bind]
  refine wp_doesUserExist fun t exist hexist _ => ?_
  rcases exist with e | _ | _
  · exact h _ _ s rfl nofun
  · exact h _ _ s rfl nofun
  · have hname : username ∈ s.names := hexist rfl
    refine wp_steady (Only.then_true ?_)
      fun t' r s' haccounts _ => h _ r s' haccounts fun _ _ => hname
    refine Only.bind (steady_of_reads (SqliteDatabase.doesPasswordMatch_reads _ _))
      fun matched => ?_
    rcases matched with e | _ | _
    · trivial
    · trivial
    · exact ⟨trivial, fun entered => by cases (entered : Bool) <;> trivial⟩

theorem Database.Inserted.names {row : User} {db : Database} (h : s.database.Inserted row db) :
    (s.setDatabase db).names = s.names ++ [row.username] := by
  rw [Managers.names, Managers.setDatabase, h.accounts, List.map_append]
  rfl

/-- A new account has a new name. -/
theorem wp_addUser_names {userName password email address phoneNumber birthday : String}
    {avatarColor : AvatarColor} {Q : List (Event operations) → Option Error → Managers → Prop}
    (h : ∀ t r s', (s'.names = s.names ∧ r ≠ none) ∨
      (r = none ∧ userName ∉ s.names ∧ s'.names = s.names ++ [userName]) → Q t r s') :
    wp (machine true) (fun _ => True) (SqliteDatabase.addUser userName password email address
      phoneNumber birthday avatarColor) Q s := by
  unfold SqliteDatabase.addUser
  simp only [wp_bind]
  refine (wp_external _ _).mpr fun c => ?_
  simp only [ExternalOp.exec, ensures_ok]
  refine wp_doesUserExist fun t exist _ hfree => ?_
  rcases exist with e | _ | _
  · exact h _ _ s (.inl ⟨rfl, Option.some_ne_none _⟩)
  · have hfree : userName ∉ s.names := hfree rfl
    simp only [wp_bind]
    refine wp_steady (steady_of_reads (SqliteDatabase.doesEmailExist_reads email)).then_true
      fun t exist s₁ haccounts _ => ?_
    have hnames : s₁.names = s.names := Managers.names_eq haccounts
    rcases exist with e | _ | _
    · exact h _ _ s₁ (.inl ⟨hnames, Option.some_ne_none _⟩)
    · simp only [wp_bind]
      refine wp_db fun c r db hc hx => ?_
      cases r with
      | none =>
          cases DbOp.exec_none hx
          exact h _ _ s₁ (.inl ⟨hnames, Option.some_ne_none _⟩)
      | some id =>
          rw [DbOp.exec_succeeds rfl hc] at hx
          simp only [DbOp.apply] at hx
          split at hx <;> cases hx
          next hinsert =>
            obtain ⟨-, hins⟩ := Database.insertUser_eq_some hinsert
            exact h _ _ _ (.inr ⟨rfl, hfree, by rw [hins.names, hnames]⟩)
    · exact h _ _ s₁ (.inl ⟨hnames, Option.some_ne_none _⟩)
  · exact h _ _ s (.inl ⟨rfl, Option.some_ne_none _⟩)

/-- A signup loses no account, and one that succeeds has a new one. -/
theorem wp_signup_names {username password email address phoneNumber birthday : String}
    {Q : List (Event operations) → Result (Bool × String) → Managers → Prop}
    (h : ∀ t r s', (∀ name ∈ s.names, name ∈ s'.names) →
      (∀ message, r = .ok (true, message) → username ∉ s.names ∧ username ∈ s'.names) →
      Q t r s') :
    wp (machine true) (fun _ => True) (LoginManager.signup P username password email address
      phoneNumber birthday) Q s := by
  unfold LoginManager.signup
  dsimp only
  split_ifs with hvalid
  · exact h _ _ s (fun _ => id) fun message heq => by cases heq
  · rw [wp_bind]
    refine (wp_external _ _).mpr fun c => ?_
    simp only [ExternalOp.exec, ensures_ok, wp_bind]
    refine wp_addUser_names fun t added s₁ hadded => ?_
    rcases hadded with ⟨hnames, hsome⟩ | ⟨rfl, hfree, hnames⟩
    · cases added with
      | none => exact absurd rfl hsome
      | some e =>
          dsimp only
          split_ifs
          all_goals exact h _ _ s₁ (fun _ => hnames ▸ id) fun message heq => by cases heq
    · refine wp_login_names fun t r s₂ haccounts _ => ?_
      have hnames' : s₂.names = s.names ++ [username] := (Managers.names_eq haccounts).trans hnames
      refine h _ r s₂ (fun name hname => ?_) fun _ _ => ⟨hfree, ?_⟩
      · exact hnames' ▸ List.mem_append_left _ hname
      · exact hnames' ▸ List.mem_append_right _ List.mem_cons_self

/-- The removal takes the account of the given name only. -/
theorem wp_removeUnverified_names {username : String}
    {Q : List (Event operations) → Unit → Managers → Prop}
    (h : ∀ t s', (∀ name ∈ s.names, name ≠ username → name ∈ s'.names) → Q t () s') :
    wp (machine true) (fun _ => True) (UsersManager.removeUserUnverifiedUser username) Q s := by
  unfold UsersManager.removeUserUnverifiedUser SqliteDatabase.removeUser SqliteDatabase.getUser
  simp only [wp_bind]
  refine wp_db fun c r db hc hx => ?_
  rw [DbOp.exec_succeeds rfl hc] at hx
  cases hx
  rw [Managers.setDatabase_self]
  split
  · next hr => cases hr
  · exact h _ s fun _ hname _ => hname
  · next user rest hr =>
      have hmem : user ∈ s.database.users.filter (·.username = username) :=
        List.mem_of_mem_take (Option.some.inj hr ▸ List.mem_cons_self)
      obtain ⟨huser, hname⟩ := List.mem_filter.mp hmem
      have hname : user.username = username := of_decide_eq_true hname
      simp only [wp_pure, wp_bind]
      refine wp_db fun c r db hc hx => ?_
      rw [DbOp.exec_succeeds rfl hc] at hx
      cases hx
      refine h _ _ fun name hmem hne => ?_
      obtain ⟨other, hother, rfl⟩ := Managers.mem_names.mp hmem
      refine Managers.mem_names.mpr ⟨other, List.mem_filter.mpr ⟨hother, ?_⟩, rfl⟩
      refine decide_eq_true fun hid => hne ?_
      rw [Database.user_eq_of_id hother huser hid, hname]

theorem LoginRequestHandler.handleRequest_names (request : RequestInfo) :
    KeepsNames s .login (handleRequest P request) := by
  have hno : ∀ name, Handler.login.name = some name → name ∈ s.names := nofun
  have hanswer : ∀ {r : RequestResult}, r.handler = .login →
      KeepsNames s .login (pure r) := fun hr => keepsNames_steady hno (sameName_login hr)
  have hlogin : KeepsNames s .login (login P request) := by
    unfold KeepsNames login
    rw [wp_bind]
    refine wp_steady steady_lift.then_true fun t request s₁ haccounts _ => ?_
    cases request with
    | error e => exact namesKept_same hno haccounts (sameName_login rfl)
    | ok request =>
        rw [wp_bind]
        refine wp_login_names fun t' r s₂ haccounts' hname => ?_
        have haccounts' := haccounts'.trans haccounts
        rcases r with e | ⟨_ | _, message⟩
        · exact namesKept_same hno haccounts' (sameName_login rfl)
        · exact namesKept_same hno haccounts' (sameName_login rfl)
        · refine ⟨fun name hmem _ => Managers.names_eq haccounts' ▸ hmem, fun name heq => ?_⟩
          obtain rfl : request.username = name := Option.some.inj heq
          rw [Managers.names_eq haccounts', ← Managers.names_eq haccounts]
          exact hname message rfl
  have hsignup : KeepsNames s .login (signup P request) := by
    unfold KeepsNames signup
    rw [wp_bind]
    refine wp_steady steady_lift.then_true fun t request s₁ haccounts _ => ?_
    have hnames₁ := Managers.names_eq haccounts
    cases request with
    | error e => exact namesKept_same hno haccounts (sameName_login rfl)
    | ok request =>
        rw [wp_bind]
        refine wp_signup_names fun t' r s₂ hkept hnew => ?_
        have hkept : ∀ name ∈ s.names, name ∈ s₂.names := hnames₁ ▸ hkept
        rcases r with e | ⟨_ | _, message⟩
        · exact ⟨fun name hmem _ => hkept name hmem, nofun⟩
        · exact ⟨fun name hmem _ => hkept name hmem, nofun⟩
        · obtain ⟨hfree, hadded⟩ := hnew message rfl
          rw [hnames₁] at hfree
          simp only [wp_bind]
          refine (wp_external _ _).mpr fun c => ?_
          simp only [ExternalOp.exec, ensures_ok]
          refine (wp_external _ _).mpr fun c' => ?_
          simp only [ExternalOp.exec, ensures_ok]
          cases hsent : (if c'.fails then some c'.error else none : Option Error) with
          | none =>
              refine ⟨fun name hmem _ => hkept name hmem, fun name heq => ?_⟩
              exact Option.some.inj heq ▸ hadded
          | some e =>
              simp only [wp_bind]
              refine wp_removeUnverified_names fun t'' s₃ hleft => ?_
              refine wp_steady (p := LoginManager.logout _) (ψ := fun _ => True)
                ⟨trivial, fun _ => trivial⟩ fun t₄ _ s₄ haccounts' _ => ?_
              refine ⟨fun name hmem _ => ?_, nofun⟩
              rw [Managers.names_eq haccounts']
              exact hleft name (hkept name hmem) fun heq => hfree (heq ▸ hmem)
  have hforgot : KeepsNames s .login (forgotPassword P request) := by
    refine keepsNames_steady hno (steady_bind steady_lift fun request => ?_)
    cases request with
    | error e => exact sameName_login rfl
    | ok request =>
        refine steady_bind (steady_of_reads (LoginManager.forgotPassword_reads _)) fun status => ?_
        cases status <;> exact sameName_login rfl
  unfold handleRequest
  split_ifs
  · exact hanswer rfl
  · split
    · exact hlogin
    · exact hsignup
    · exact hforgot
    · exact hanswer rfl
    · exact hanswer rfl

theorem VerificationRequestHandler.handleRequest_names {tries : UInt32}
    {email code username : String} (request : RequestInfo) (hs : username ∈ s.names) :
    KeepsNames s (.verification tries email code username)
      (handleRequest P tries email code username request) := by
  have hown : ∀ name, (Handler.verification tries email code username).name = some name →
      name ∈ s.names := fun name hname => Option.some.inj hname ▸ hs
  have habort : ∀ {r : RequestResult} {s₁ : Managers}, r.handler = .login →
      s₁.database.accounts = s.database.accounts →
      wp (machine true) (fun _ => True) (UsersManager.removeUserUnverifiedUser username >>=
        fun _ => LoginManager.logout username >>= fun _ => pure r)
        (fun _ r s' => NamesKept (.verification tries email code username) s r s') s₁ := by
    intro r s₁ hr haccounts
    simp only [wp_bind]
    refine wp_removeUnverified_names fun t s₂ hleft => ?_
    refine wp_steady (p := LoginManager.logout _) (ψ := fun _ => True)
      ⟨trivial, fun _ => trivial⟩ fun t' _ s₃ haccounts' _ => ?_
    refine ⟨fun name hmem hne => ?_, fun name hname => ?_⟩
    · rw [Managers.names_eq haccounts']
      refine hleft name ((Managers.names_eq haccounts).symm ▸ hmem) fun heq => hne ?_
      rw [heq]
      rfl
    · rw [hr] at hname
      cases hname
  have hsubmit : KeepsNames s (.verification tries email code username)
      (submitVerificationCode P tries email code username request) := by
    unfold KeepsNames submitVerificationCode
    dsimp only
    rw [wp_bind]
    refine wp_steady steady_lift.then_true fun t request s₁ haccounts _ => ?_
    cases request with
    | error e => exact namesKept_same hown haccounts (sameName_self rfl)
    | ok request =>
        dsimp only
        split_ifs
        · exact namesKept_same hown haccounts fun name hname => hname
        · exact habort rfl haccounts
        · exact namesKept_same hown haccounts fun name hname => hname
  have hresend : KeepsNames s (.verification tries email code username)
      (resendVerificationCode tries email code username) := by
    refine keepsNames_steady hown ⟨trivial, fun code => ⟨trivial, fun sent => ?_⟩⟩
    cases sent <;> exact fun name hname => hname
  unfold handleRequest
  dsimp only
  split_ifs
  · exact keepsNames_steady hown (sameName_self rfl)
  · split
    · exact hsubmit
    · exact hresend
    · exact habort rfl rfl
    · exact keepsNames_steady hown (sameName_self rfl)

theorem Handler.handleRequest_names (h : Handler) (request : RequestInfo)
    (hs : ∀ name, h.name = some name → name ∈ s.names) :
    KeepsNames s h (h.handleRequest P request) := by
  cases h with
  | login => exact LoginRequestHandler.handleRequest_names request
  | verification tries email code username =>
      exact VerificationRequestHandler.handleRequest_names request (hs username rfl)
  | menu user => exact keepsNames_steady hs (MenuRequestHandler.handleRequest_steady user request)
  | roomMember roomUuid roomName user =>
      exact keepsNames_steady hs
        (RoomMemberRequestHandler.handleRequest_steady roomUuid roomName user request)
  | roomAdmin room user =>
      exact keepsNames_steady hs (RoomAdminRequestHandler.handleRequest_steady room user request)
  | game g user =>
      exact keepsNames_steady hs (GameRequestHandler.handleRequest_steady g user request)

/-! ## Runs -/

section Runs

variable {database : Database} {K : ServerConfig → AtomicServerLabel → Prop}
  {cfg cfg' : ServerConfig}

/-- Two connections never have handlers of one name. -/
theorem one_handler_of_name {K : ServerConfig → Service.Label ℕ RequestInfo Bool → Prop} {d : Bool}
    (hrun : Service.Reachable (handleClient P) (machine d) K (ServerConfig.init database) cfg)
    {c c' : ℕ} {session session' : Session} {name : String} (hc : cfg.clients c = .idle session)
    (hc' : cfg.clients c' = .idle session') (hname : session.handler.name = some name)
    (hname' : session'.handler.name = some name) : c = c' := by
  obtain ⟨hconsistent, hkeeps⟩ := consistent_of_run hrun
  have hheld : ∀ {c : ℕ} {session : Session}, cfg.clients c = .idle session →
      (standing P c cfg.trace).held = session.handler.name := by
    intro c session hc
    have hstands := hkeeps c
    rw [Discipline.Keeps, hc] at hstands
    exact Handler.Stands.held hstands
  exact hconsistent.names.unique c c' name ((hheld hc).trans hname) ((hheld hc').trans hname')

/-- A connection that goes on has the handler of the result, and an exit ends it. -/
theorem resting_handler {request : RequestInfo} {r : RequestResult} {sent : Bool}
    {session : Session} (h : (Service.resting ((handleClient P).next request r sent) :
      Client operations Session RequestInfo RequestResult) = .idle session) :
    request.requestId ≠ .exit ∧ session.handler = r.handler := by
  simp only [handleClient] at h
  split_ifs at h with hexit hsent <;> cases h <;> exact ⟨hexit, rfl⟩

/-- The names of all handlers have an account. -/
def HoldersNamed (cfg : ServerConfig) : Prop :=
  ∀ c session, cfg.clients c = .idle session → ∀ name, session.handler.name = some name →
    name ∈ cfg.shared.names

theorem holdersNamed_of_run
    (hrun : Service.AtomicReachable (handleClient P) (machine true) K (ServerConfig.init database)
      cfg) : HoldersNamed cfg := by
  refine hrun.along (fun c session hc => nomatch hc) ?_
  intro cfg l cfg' hrun hnamed _ hstep c' session' hc' name hname
  cases hstep with
  | @connect c hc =>
      dsimp only at hc'
      by_cases hcc : c' = c
      · subst hcc
        rw [Function.update_self] at hc'
        cases hc'
        cases hname
      · rw [Function.update_of_ne hcc] at hc'
        exact hnamed c' session' hc' name hname
  | @request c session request sent t r s' hc _ hx =>
      have hkept : NamesKept session.handler cfg.shared r s' :=
        hx.of_wp (Handler.handleRequest_names session.handler request (hnamed c session hc))
      dsimp only at hc'
      by_cases hcc : c' = c
      · subst hcc
        rw [Function.update_self] at hc'
        obtain ⟨-, hhandler⟩ := resting_handler hc'
        exact hkept.own name (hhandler ▸ hname)
      · rw [Function.update_of_ne hcc] at hc'
        refine hkept.others name (hnamed c' session' hc' name hname) fun hown => hcc ?_
        exact one_handler_of_name hrun.reachable hc' hc hname hown

end Runs

end TriviaServer
