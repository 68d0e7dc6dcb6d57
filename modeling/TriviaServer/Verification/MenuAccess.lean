import TriviaServer.Verification.Removals

/-! # Who obtains a Menu handler

The database has no mark for verified accounts: one that waits for its code is kept out only
because its name is logged in. A signup inserts the account before it enters the name, so a
login in between gets in; and it leaves the account behind where it finds the name taken. -/

namespace TriviaServer

open Interaction

/-- A signup enters the name of the account that it has inserted. -/
def Enters (P : Platform) (account : ℕ × String) (before : ServerTrace)
    (e : ℕ × ServerObservation) : Prop :=
  (∃ row, standing P e.1 before = .inserted row ∧ (row.id, row.username) = account) ∧
    e.2 = .called ⟨.login (.tryLogin account.2), true⟩

/-- The accounts from before the run, and those whose signup has entered their name. -/
def Entered (P : Platform) (database : Database) (trace : ServerTrace) (account : ℕ × String) :
    Prop :=
  account ∈ database.accounts ∨ Sometime (Enters P account) trace

/-- The locked section of a login is reached for a free name only while the database has an
account of that name, entered or just inserted by the same connection. -/
def LoginsFindEntered (P : Platform) (database : Database) (cfg : ServerConfig) :
    Service.Label ℕ RequestInfo Bool → Prop
  | .perform c => ∀ session request name next,
      cfg.clients c = .busy session request (.perform (.login (.tryLogin name)) next) →
      name ∉ cfg.shared.loggedUsers.map LoggedUser.username →
      ∃ id, (id, name) ∈ cfg.shared.database.accounts ∧
        (Entered P database cfg.trace (id, name) ∨
          ∃ row, standing P c cfg.trace = .inserted row ∧ row.id = id)
  | _ => True

/-- Whenever a request has just given a connection the Menu handler of a user, the account of
that name is in the database, and settled. -/
def MenuOnlySettled (P : Platform) (database : Database) (cfg : ServerConfig) : Prop :=
  ∀ before c session request r session' user,
    cfg.trace = before ++ [(c, .finished session request r (some session'))] →
    session.handler ≠ .menu user → session'.handler = .menu user →
    ∃ id, (id, user.username) ∈ cfg.shared.database.accounts ∧
      Settled P database cfg.trace (id, user.username)

variable {P : Platform} {s s' : Managers} {trace : ServerTrace} {c : ℕ} {database : Database}

theorem entered_snoc {e : ℕ × ServerObservation} {account : ℕ × String} :
    Entered P database (trace ++ [e]) account ↔
      Entered P database trace account ∨ Enters P account trace e := by
  rw [Entered, sometime_snoc, ← or_assoc]
  rfl

/-! ## One call -/

/-- A row stays as it is unless it is removed, or updated under its name. -/
theorem user_kept {d : Bool} {o : Op} {r : o.Answer} {row : User}
    (hs : (machine d).Step o s r s') (hrow : row ∈ s.database.users)
    (hremove : ∀ id, o = .database (.removeUser id) → id ≠ row.id)
    (hupdate : ∀ name address phoneNumber password avatarColor,
      o = .database (.updateUser name address phoneNumber password avatarColor) →
        name ≠ row.username) : row ∈ s'.database.users := by
  cases o with
  | login o =>
      have hx := LoginOp.step_eq hs
      cases o with
      | tryLogin name =>
          simp only [LoginOp.exec] at hx
          split_ifs at hx <;> cases hx <;> exact hrow
      | logout name =>
          cases hx
          exact hrow
  | room o =>
      rw [RoomOp.frame hs]
      exact hrow
  | game o =>
      rw [(GameOp.frame hs).1]
      exact hrow
  | external o =>
      rw [ExternalOp.step_eq hs]
      exact hrow
  | database o =>
      obtain ⟨choice, db, -, hx, rfl⟩ := DbOp.step_eq hs
      rcases DbOp.exec_cases hx with ⟨-, -, rfl⟩ | ⟨-, happly⟩
      · exact hrow
      · cases o with
        | insertUser new =>
            simp only [DbOp.apply] at happly
            split at happly
            · next id db' hinsert =>
                cases happly
                obtain ⟨-, hins⟩ := Database.insertUser_eq_some hinsert
                exact hins.users ▸ List.mem_append_left _ hrow
            · cases happly
              exact hrow
        | removeUser id =>
            cases happly
            exact List.mem_filter.mpr ⟨hrow, decide_eq_true (hremove id rfl).symm⟩
        | updateUser name address phoneNumber password avatarColor =>
            cases happly
            have hne := (hupdate name address phoneNumber password avatarColor rfl).symm
            exact List.mem_map.mpr ⟨row, hrow, if_neg hne⟩
        | _ =>
            cases happly
            exact hrow

theorem nextUserId_le {d : Bool} {o : Op} {r : o.Answer} (hs : (machine d).Step o s r s') :
    s.database.nextUserId ≤ s'.database.nextUserId := by
  cases o with
  | login o =>
      have hx := LoginOp.step_eq hs
      cases o with
      | tryLogin name =>
          simp only [LoginOp.exec] at hx
          split_ifs at hx <;> cases hx <;> exact le_rfl
      | logout name =>
          cases hx
          exact le_rfl
  | room o =>
      rw [RoomOp.frame hs]
  | game o =>
      rw [(GameOp.frame hs).1]
  | external o =>
      rw [ExternalOp.step_eq hs]
  | database o =>
      obtain ⟨choice, db, -, hx, rfl⟩ := DbOp.step_eq hs
      rcases DbOp.exec_cases hx with ⟨-, -, rfl⟩ | ⟨-, happly⟩
      · exact le_rfl
      · cases o with
        | insertUser new =>
            simp only [DbOp.apply] at happly
            split at happly
            · next id db' hinsert =>
                cases happly
                obtain ⟨-, hins⟩ := Database.insertUser_eq_some hinsert
                exact hins.nextUserId ▸ Nat.le_succ _
            · cases happly
              exact le_rfl
        | _ =>
            cases happly
            exact le_rfl

/-! ## The invariant -/

/-- Entered accounts are settled or wait for their code with the name held; members have
settled accounts; an account that is inserted stays as its signup wrote it. -/
structure Vetted (P : Platform) (database : Database) (s : Managers) (trace : ServerTrace) :
    Prop where
  preserved : Preserved P database s trace
  entered_lt : ∀ account, Entered P database trace account → account.1 < s.database.nextUserId
  entered : ∀ account ∈ s.database.accounts, Entered P database trace account →
    Settled P database trace account ∨
      ∃ c mailed, standing P c trace = .entered account.1 account.2 mailed
  inserted : ∀ c row, standing P c trace = .inserted row → row ∈ s.database.users
  member : ∀ c name, standing P c trace = .member name →
    ∃ id, Settled P database trace (id, name)
  rests : ∀ before c session request r session',
    trace = before ++ [(c, .finished session request r (some session'))] →
    session'.handler.Stands (standing P c trace)

namespace Vetted

theorem init (database : Database) : Vetted P database (.init database) [] where
  preserved := .init database
  entered_lt account h := by
    rcases h with h | h
    · obtain ⟨u, hu, rfl⟩ := List.mem_map.mp h
      exact database.ids_lt u hu
    · exact absurd h not_sometime_nil
  entered account h _ := .inl (.inl h)
  inserted c row h := nomatch h
  member c name h := nomatch h
  rests before c session request r session' h := by simp at h

theorem assumed (h : Vetted P database s trace) {o : Op} {r : o.Answer}
    (hs : (machine true).Step o s r s') : (standing P c trace).Assumed true ⟨o, r⟩ := by
  have hfalse := h.preserved.consistent.assumed (c := c) hs
  cases o with
  | database o =>
      obtain ⟨choice, db, hchoice, hx, -⟩ := DbOp.step_eq hs
      rw [DbOp.exec_succeeds rfl hchoice] at hx
      cases o with
      | selectUserIds name =>
          intro _ account hst hname
          cases hx
          have hfilter := Database.filter_username_of_mem (h.inserted c account hst)
          rw [hname] at hfilter
          rw [hfilter]
          rfl
      | removeUser id =>
          cases hx
          exact fun _ => rfl
      | getUsers name =>
          cases hx
          refine ⟨hfalse.1, fun _ => ⟨fun account hst hname => ?_, fun id mailed hst => ?_⟩⟩
          · have hfilter := Database.filter_username_of_mem (h.inserted c account hst)
            rw [hname] at hfilter
            rw [hfilter]
            rfl
          · have hmem := h.preserved.consistent.accounts.mem c (id, name) (by rw [hst]; rfl)
            obtain ⟨u, hu, hname⟩ := List.mem_map.mp hmem
            have hfilter := Database.filter_username_of_mem hu
            rw [show u.username = name from congrArg Prod.snd hname] at hfilter
            exact ⟨u, [], by rw [hfilter]; rfl⟩
      | _ => trivial
  | _ => trivial

/-- What a call must find, where it is a locked section of a login for a free name. -/
def FindsEntered (P : Platform) (database : Database) (s : Managers) (trace : ServerTrace)
    (c : ℕ) (o : Op) : Prop :=
  ∀ name, o = .login (.tryLogin name) → name ∉ s.loggedUsers.map LoggedUser.username →
    ∃ id, (id, name) ∈ s.database.accounts ∧ (Entered P database trace (id, name) ∨
      ∃ row, standing P c trace = .inserted row ∧ row.id = id)

theorem entered_called (h : Vetted P database s trace) {o : Op} {r : o.Answer}
    (ho : (standing P c trace).Allowed true o) (hs : (machine true).Step o s r s')
    {account : ℕ × String} (hmem : account ∈ s'.database.accounts)
    (hin : Entered P database (trace ++ [(c, .called ⟨o, r⟩)]) account) :
    Settled P database (trace ++ [(c, .called ⟨o, r⟩)]) account ∨
      ∃ c' mailed, standing P c' (trace ++ [(c, .called ⟨o, r⟩)]) =
        .entered account.1 account.2 mailed := by
  rcases entered_snoc.mp hin with hbefore | ⟨⟨row, hst, rfl⟩, he⟩
  · -- an account that was entered before is not the one inserted now
    have haccount := (called_cases ho hs).2
    have hold : account ∈ s.database.accounts := by
      cases haccount with
      | same haccounts _ => exact haccounts ▸ hmem
      | insert hins _ _ =>
          rw [hins.accounts, List.mem_append, List.mem_singleton] at hmem
          refine hmem.resolve_right fun heq => ?_
          have hlt := h.entered_lt account hbefore
          rw [heq] at hlt
          exact absurd hlt (lt_irrefl _)
      | remove hdb _ _ => exact (Database.mem_accounts_removeUser.mp (hdb ▸ hmem)).1
    rcases h.entered account hold hbefore with hsettled | ⟨c', mailed, hc'⟩
    · exact .inl (settled_snoc.mpr (.inl hsettled))
    · refine .inr ⟨c', ?_⟩
      by_cases hcc : c' = c
      · subst hcc
        rw [standing_self]
        have hstep := standingStep (r := r) ho
        generalize hst' : (standing P c' trace).called ⟨o, r⟩ = st' at hstep
        rw [hc'] at hstep
        rw [show (standing P c' trace).observe P (.called ⟨o, r⟩) = st' from hst']
        cases hstep with
        | keep => exact ⟨mailed, rfl⟩
        | mail => exact ⟨_, rfl⟩
        | remove =>
            rw [removeUser_database hs] at hmem
            exact absurd rfl (Database.mem_accounts_removeUser.mp hmem).2
        | logout hheld hne =>
            cases hheld
            exact absurd rfl (hne rfl _ _)
      · refine ⟨mailed, ?_⟩
        rw [standing_other hcc]
        exact hc'
  · cases he
    refine .inr ⟨c, none, ?_⟩
    rw [standing_self, hst]
    rfl

theorem inserted_called (h : Vetted P database s trace) {o : Op} {r : o.Answer}
    (ho : (standing P c trace).Allowed true o) (hs : (machine true).Step o s r s') {c' : ℕ}
    {row : User} (hrow : standing P c' (trace ++ [(c, .called ⟨o, r⟩)]) = .inserted row) :
    row ∈ s'.database.users := by
  by_cases hcc : c' = c
  · subst hcc
    have hstep := standingStep (r := r) ho
    have haccount := (called_cases ho hs).2
    rw [standing_self] at hrow
    generalize hst : standing P c' trace = st at hstep haccount ho hrow
    generalize hst' : st.called ⟨o, r⟩ = st' at hstep haccount
    rw [show st.observe P (.called ⟨o, r⟩) = st' from hst'] at hrow
    subst hrow
    cases hstep with
    | keep =>
        refine user_kept hs (h.inserted c' row hst) (fun id ho' heq => ?_)
          fun name address phoneNumber password avatarColor ho' heq => ?_
        · subst ho'
          obtain ⟨name, mailed, hst⟩ := ho
          exact nomatch hst
        · subst ho'
          exact nomatch (show Standing.inserted row = .member name from ho)
    | insert =>
        cases haccount with
        | insert hins _ hst' =>
            rw [hins.users]
            cases hst'
            simp
        | same _ hpending => exact hpending.elim nofun nofun
  · rw [standing_other hcc] at hrow
    have hpending : (standing P c' trace).pending = some (row.id, row.username) := by
      rw [hrow]
      rfl
    refine user_kept hs (h.inserted c' row hrow) (fun id ho' heq => ?_)
      fun name address phoneNumber password avatarColor ho' heq => ?_
    · subst ho'
      obtain ⟨name, mailed, hst⟩ := ho
      have hown : (standing P c trace).pending = some (id, name) := by
        rw [hst]
        rfl
      exact hcc (h.preserved.consistent.accounts.unique c' c _ _ hpending hown heq.symm)
    · subst ho'
      obtain ⟨id, hid⟩ := h.member c name ho
      have hsame : id = row.id := Database.account_unique (h.preserved.settled_mem _ hid)
        (heq ▸ h.preserved.consistent.accounts.mem c' _ hpending)
      exact h.preserved.settled_unclaimed _ hid c' _ _ hpending hsame.symm

theorem member_called (h : Vetted P database s trace) {o : Op} {r : o.Answer}
    (ho : (standing P c trace).Allowed true o) (hs : (machine true).Step o s r s')
    (hfinds : FindsEntered P database s trace c o) {c' : ℕ} {name : String}
    (hmember : standing P c' (trace ++ [(c, .called ⟨o, r⟩)]) = .member name) :
    ∃ id, Settled P database trace (id, name) := by
  by_cases hcc : c' = c
  · subst hcc
    have hstep := standingStep (r := r) ho
    have hname := (called_cases ho hs).1
    rw [standing_self] at hmember
    generalize hst : standing P c' trace = st at hstep hname ho hmember
    generalize hst' : st.called ⟨o, r⟩ = st' at hstep hname
    rw [show st.observe P (.called ⟨o, r⟩) = st' from hst'] at hmember
    subst hmember
    cases hstep with
    | keep => exact h.member c' name hst
    | login =>
        cases hname with
        | same _ hheld _ => exact nomatch hheld
        | enter hfree _ _ _ =>
            obtain ⟨id, hmem, hentered | ⟨row, hrow, -⟩⟩ := hfinds name rfl hfree
            · rcases h.entered _ hmem hentered with hsettled | ⟨holder, mailed, hholder⟩
              · exact ⟨id, hsettled⟩
              · refine absurd (h.preserved.consistent.names.mem (c := holder) ?_) hfree
                rw [hholder]
                rfl
            · exact nomatch hst.symm.trans hrow
  · rw [standing_other hcc] at hmember
    exact h.member c' name hmember

theorem called (h : Vetted P database s trace) {o : Op} {r : o.Answer}
    (ho : (standing P c trace).Allowed true o) (hs : (machine true).Step o s r s')
    (hfinds : FindsEntered P database s trace c o) :
    Vetted P database s' (trace ++ [(c, .called ⟨o, r⟩)]) where
  preserved := h.preserved.called ho hs
  entered_lt account hin := by
    refine lt_of_lt_of_le ?_ (nextUserId_le hs)
    rcases entered_snoc.mp hin with hin | ⟨⟨row, hst, rfl⟩, -⟩
    · exact h.entered_lt account hin
    · exact s.database.ids_lt row (h.inserted c row hst)
  entered account hmem hin := h.entered_called ho hs hmem hin
  inserted c' row hrow := h.inserted_called ho hs hrow
  member c' name hmember := by
    obtain ⟨id, hid⟩ := h.member_called ho hs hfinds hmember
    exact ⟨id, settled_snoc.mpr (.inl hid)⟩
  rests before c' session request r' session' heq := by
    cases (List.append_inj' heq rfl).2

theorem received (h : Vetted P database s trace) (session : Session) (request : RequestInfo) :
    Vetted P database s (trace ++ [(c, .received session request)]) where
  preserved := h.preserved.received session request
  entered_lt account hin :=
    h.entered_lt account ((entered_snoc.mp hin).resolve_right fun he => nomatch he.2)
  entered account hmem hin := by
    have hbefore := (entered_snoc.mp hin).resolve_right fun he => nomatch he.2
    simp only [standing_received]
    exact (h.entered account hmem hbefore).imp_left fun hs => settled_snoc.mpr (.inl hs)
  inserted c' row hrow := h.inserted c' row (standing_received c' session request ▸ hrow)
  member c' name hmember := by
    obtain ⟨id, hid⟩ := h.member c' name (standing_received c' session request ▸ hmember)
    exact ⟨id, settled_snoc.mpr (.inl hid)⟩
  rests before c' session request r' session' heq := by
    cases (List.append_inj' heq rfl).2

theorem finished (h : Vetted P database s trace) {session : Session} {request : RequestInfo}
    {r : RequestResult} {next : Option Session}
    (hrests : ∀ session', next = some session' →
      session'.handler.Stands ((standing P c trace).finished P request)) :
    Vetted P database s (trace ++ [(c, .finished session request r next)]) where
  preserved := h.preserved.finished session request r next
  entered_lt account hin :=
    h.entered_lt account ((entered_snoc.mp hin).resolve_right fun he => nomatch he.2)
  entered account hmem hin := by
    have hbefore := (entered_snoc.mp hin).resolve_right fun he => nomatch he.2
    rcases h.entered account hmem hbefore with hsettled | ⟨c', mailed, hc'⟩
    · exact .inl (settled_snoc.mpr (.inl hsettled))
    · by_cases hcc : c' = c
      · subst hcc
        rcases (standing P c' trace).finished_cases P request with
          hsame | ⟨_, hst, -⟩ | ⟨id, name, code, hst, hcode, -⟩
        · refine .inr ⟨c', mailed, ?_⟩
          rw [standing_self, ← hc']
          exact hsame
        · exact nomatch hst.symm.trans hc'
        · cases hst.symm.trans hc'
          exact .inl (settled_snoc.mpr (.inr ⟨_, _, _, _, code, rfl, hst, hcode⟩))
      · refine .inr ⟨c', mailed, ?_⟩
        rw [standing_other hcc]
        exact hc'
  inserted c' row hrow := by
    by_cases hcc : c' = c
    · subst hcc
      rw [standing_self] at hrow
      rcases (standing P c' trace).finished_cases P request with
        hsame | ⟨_, -, hout⟩ | ⟨_, _, _, -, -, hmember⟩
      · exact h.inserted c' row (hsame.symm.trans hrow)
      · exact nomatch hout.symm.trans hrow
      · exact nomatch hmember.symm.trans hrow
    · rw [standing_other hcc] at hrow
      exact h.inserted c' row hrow
  member c' name hmember := by
    by_cases hcc : c' = c
    · subst hcc
      rw [standing_self] at hmember
      rcases (standing P c' trace).finished_cases P request with
        hsame | ⟨_, -, hout⟩ | ⟨id, name', code, hst, hcode, hfinished⟩
      · obtain ⟨id, hid⟩ := h.member c' name (hsame.symm.trans hmember)
        exact ⟨id, settled_snoc.mpr (.inl hid)⟩
      · exact nomatch hout.symm.trans hmember
      · cases hfinished.symm.trans hmember
        exact ⟨id, settled_snoc.mpr (.inr ⟨_, _, _, _, code, rfl, hst, hcode⟩)⟩
    · rw [standing_other hcc] at hmember
      obtain ⟨id, hid⟩ := h.member c' name hmember
      exact ⟨id, settled_snoc.mpr (.inl hid)⟩
  rests before c' session' request' r' next' heq := by
    have hlast := (List.append_inj' heq rfl).2
    cases hlast
    rw [standing_self]
    exact hrests next' rfl

end Vetted

/-! ## Runs -/

theorem vetted_of_run {cfg : ServerConfig}
    (hrun : Service.Reachable (handleClient P) (machine true) (LoginsFindEntered P database)
      (ServerConfig.init database) cfg) : Vetted P database cfg.shared cfg.trace := by
  refine ((handleClient_obeys P true).reachable (I := Vetted P database) ?_ ?_ ?_ hrun
    ⟨.init database, fun c => rfl⟩).1
  · intro cfg c session request h _ _ _
    exact h.received session request
  · intro cfg c session request o next r s' h hbusy hK ho hs
    refine ⟨h.assumed hs, h.called ho hs fun name hname hfree => ?_⟩
    subst hname
    exact hK session request name next hbusy hfree
  · intro s trace c session request r sent h hpost
    refine h.finished fun session' hnext => ?_
    have hrest := hpost.2 sent
    rw [hnext] at hrest
    exact hrest

/-- In every run in which the logins find entered accounts, a Menu handler is only ever given
to a user whose account is settled. -/
theorem menuOnlySettled_of_loginsFindEntered {cfg : ServerConfig}
    (hrun : Service.Reachable (handleClient P) (machine true) (LoginsFindEntered P database)
      (ServerConfig.init database) cfg) : MenuOnlySettled P database cfg := by
  intro before c session request r session' user htrace _ hmenu
  have h := vetted_of_run hrun
  have hstands := h.rests before c session request r session' htrace
  rw [hmenu] at hstands
  obtain ⟨id, hid⟩ := h.member c user.username hstands
  exact ⟨id, h.preserved.settled_mem _ hid, hid⟩

/-- A connection stands behind the insertion of the account with an id. -/
def hasInserted (id : ℕ) : Standing → Bool
  | .inserted row => row.id = id
  | _ => false

/-- Every login finds an account from before the run, or the one that its own connection has
just inserted. -/
def findsAccount (P : Platform) (database : Database) (cfg : ServerConfig) :
    Service.Label ℕ RequestInfo Bool → Bool
  | .perform c =>
      match cfg.clients c with
      | .busy _ _ (.perform (.login (.tryLogin name)) _) =>
          cfg.shared.database.accounts.any fun account => account.2 = name &&
            (decide (account ∈ database.accounts) ||
              hasInserted account.1 (standing P c cfg.trace))
      | _ => true
  | _ => true

theorem loginsFindEntered_of_findsAccount {cfg : ServerConfig}
    {l : Service.Label ℕ RequestInfo Bool} (h : findsAccount P database cfg l = true) :
    LoginsFindEntered P database cfg l := by
  cases l with
  | perform c =>
      intro session request name next hbusy _
      simp only [findsAccount, hbusy, List.any_eq_true, Bool.and_eq_true, Bool.or_eq_true,
        decide_eq_true_iff] at h
      obtain ⟨⟨id, _⟩, hmem, rfl, hinit | hinserted⟩ := h
      · exact ⟨id, hmem, .inl (.inl hinit)⟩
      · refine ⟨id, hmem, .inr ?_⟩
        cases hstanding : standing P c cfg.trace with
        | inserted row => exact ⟨row, rfl, by simpa [hstanding, hasInserted] using hinserted⟩
        | _ => simp [hstanding, hasInserted] at hinserted
  | _ => trivial

/-- Whether the last request has given a connection a user's menu. -/
def endsInMenu (user : LoggedUser) (trace : ServerTrace) : Bool :=
  match trace.getLast? with
  | some (_, .finished session _ _ (some session')) =>
      session.handler ≠ .menu user && session'.handler = .menu user
  | _ => false

/-- `eve` signs up while `ann` logs in to her account on another connection, and submits the
code that was mailed. -/
def codeBesideLogin : List ServerPlay :=
  [.connect 0, .connect 1, .receive 0 (sampleRequest .signupRequest 2)] ++
  calls 0 (List.replicate 6 usual) ++ [.receive 1 (sampleRequest .loginRequest 0)] ++
  calls 1 [usual] ++ calls 0 (List.replicate 4 usual) ++ calls 1 [usual, usual] ++
  [.finish 1 true, .finish 0 true, .receive 0 ⟨.submitVerificationCodeRequest, []⟩,
    .finish 0 true]

theorem menuOnlySettled_codeBesideLogin :
    ∃ cfg, replayServer guessPlatform true sampleDatabase codeBesideLogin
        (findsAccount guessPlatform sampleDatabase) = some cfg ∧
      MenuOnlySettled guessPlatform sampleDatabase cfg ∧
      endsInMenu ⟨"eve"⟩ cfg.trace = true := by
  have hrun : ((replayServer guessPlatform true sampleDatabase codeBesideLogin
      (findsAccount guessPlatform sampleDatabase)).any fun cfg =>
        endsInMenu ⟨"eve"⟩ cfg.trace) = true := by
    decide +kernel
  obtain ⟨cfg, hcfg, hcheck⟩ := (Option.any_eq_true _ _).mp hrun
  exact ⟨cfg, hcfg, menuOnlySettled_of_loginsFindEntered
    (reachable_of_replay hcfg fun _ _ => loginsFindEntered_of_findsAccount), hcheck⟩

/-- Connection 0 signs `eve` up and has inserted the account when connection 1 logs in. -/
def loginDuringSignup : List ServerPlay :=
  [.connect 0, .connect 1, .receive 0 (sampleRequest .signupRequest 2)] ++
  calls 0 (List.replicate 5 usual) ++ [.receive 1 (sampleRequest .loginRequest 3)] ++
  calls 1 (List.replicate 3 usual) ++ [.finish 1 true]

def submitsCode (P : Platform) : ServerObservation → Bool
  | .finished _ request _ _ => (submittedCode P request).isSome
  | _ => false

theorem not_sometime_verifies {account : ℕ × String}
    (h : (trace.any fun e => submitsCode P e.2) = false) :
    ¬ Sometime (Verifies P account) trace := by
  rintro ⟨before, e, after, rfl, session, request, r, next, code, he, -, hcode⟩
  refine absurd ?_ (Bool.eq_false_iff.mp h)
  refine List.any_eq_true.mpr ⟨e, by simp, ?_⟩
  simp only [he, submitsCode, hcode, Option.isSome_some]

theorem not_menuOnlySettled :
    ¬ ∀ database cfg, Service.Reachable (handleClient samplePlatform) (machine true)
        (fun _ _ => True) (ServerConfig.init database) cfg →
      MenuOnlySettled samplePlatform database cfg := by
  intro hclaim
  have hrun : ((replayServer samplePlatform true .empty loginDuringSignup).any fun cfg =>
      endsInMenu ⟨"eve"⟩ cfg.trace && !cfg.trace.any fun e => submitsCode samplePlatform e.2) =
        true := by decide +kernel
  obtain ⟨cfg, hcfg, hcheck⟩ := (Option.any_eq_true _ _).mp hrun
  rw [Bool.and_eq_true, Bool.not_eq_true'] at hcheck
  obtain ⟨hmenu, hcode⟩ := hcheck
  have hholds := hclaim .empty cfg (reachable_of_replay hcfg fun _ _ _ => trivial)
  unfold endsInMenu at hmenu
  split at hmenu
  · next c session request r session' hlast =>
      obtain ⟨before, htrace⟩ := List.getLast?_eq_some_iff.mp hlast
      rw [Bool.and_eq_true, decide_eq_true_iff, decide_eq_true_iff] at hmenu
      obtain ⟨id, -, hinit | hverified⟩ := hholds before c session request r session' ⟨"eve"⟩
        htrace hmenu.1 hmenu.2
      · exact nomatch hinit
      · exact not_sometime_verifies hcode hverified
  · exact nomatch hmenu

end TriviaServer
