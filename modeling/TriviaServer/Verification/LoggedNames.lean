import TriviaServer.Interaction.Register
import TriviaServer.Verification.Accounts
import TriviaServer.Verification.Obedience
import TriviaServer.Verification.Replays

/-! # One connection per logged-in name

The list of logged users is a register of the names that the connections hold, and the
accounts that wait for their codes are claimed by one connection each. -/

namespace TriviaServer

open Interaction

abbrev ServerTrace : Type := List (ℕ × ServerObservation)

/-- Where a connection stands after a trace. -/
def standing (P : Platform) (c : ℕ) (trace : ServerTrace) : Standing :=
  (connections P false).standing c trace

/-- Whether a name is held, from a successful locked section of `login` to one of `logout`. -/
def holding (name : String) (before : Bool) : ServerObservation → Bool
  | .called ⟨.login (.tryLogin name'), entered⟩ => before || (entered && name' = name)
  | .called ⟨.login (.logout name'), _⟩ => before && name' ≠ name
  | _ => before

def holds (name : String) (c : ℕ) (trace : ServerTrace) : Bool :=
  follow (holding name) false c trace

variable {P : Platform} {d : Bool} {s s' : Managers} {trace : ServerTrace} {c : ℕ}

@[simp] theorem standing_self (c : ℕ) (o : ServerObservation) :
    standing P c (trace ++ [(c, o)]) = (standing P c trace).observe P o :=
  Discipline.standing_self ..

theorem standing_other {c c' : ℕ} (h : c' ≠ c) (o : ServerObservation) :
    standing P c' (trace ++ [(c, o)]) = standing P c' trace :=
  Discipline.standing_other _ h trace o

theorem standing_snoc {β : Type} (f : Standing → β) (o : ServerObservation) :
    (fun c' => f (standing P c' (trace ++ [(c, o)]))) =
      Function.update (fun c' => f (standing P c' trace)) c
        (f ((standing P c trace).observe P o)) := by
  have h := follow_snoc (Standing.observe P) .out c trace o
  have hf := congrArg (f ∘ ·) h
  rwa [Function.comp_update] at hf

/-- The shared state agrees with where the connections stand. -/
structure Consistent (P : Platform) (s : Managers) (trace : ServerTrace) : Prop where
  names : Registered (s.loggedUsers.map LoggedUser.username) fun c => (standing P c trace).held
  accounts : Claimed Prod.fst s.database.accounts fun c => (standing P c trace).pending
  holds_iff : ∀ name c, holds name c trace = true ↔ (standing P c trace).held = some name

namespace Consistent

theorem init (database : Database) : Consistent P (.init database) [] where
  names := ⟨List.nodup_nil, by simp [Managers.init, standing, connections, Standing.held],
    fun _ _ _ h => nomatch h⟩
  accounts := ⟨fun _ _ h => (nomatch h), fun _ _ _ _ h => nomatch h⟩
  holds_iff _ _ := ⟨fun h => (nomatch h), fun h => nomatch h⟩

theorem snoc (h : Consistent P s trace) {o : ServerObservation}
    (hnames : Registered (s'.loggedUsers.map LoggedUser.username)
      (Function.update (fun c' => (standing P c' trace).held) c
        ((standing P c trace).observe P o).held))
    (haccounts : Claimed Prod.fst s'.database.accounts
      (Function.update (fun c' => (standing P c' trace).pending) c
        ((standing P c trace).observe P o).pending))
    (hholds : ∀ name, holding name (holds name c trace) o = true ↔
      ((standing P c trace).observe P o).held = some name) :
    Consistent P s' (trace ++ [(c, o)]) where
  names := by
    rw [standing_snoc Standing.held]
    exact hnames
  accounts := by
    rw [standing_snoc Standing.pending]
    exact haccounts
  holds_iff := by
    intro name c'
    by_cases hcc : c' = c
    · subst hcc
      rw [holds, follow_self, standing_self]
      exact hholds name
    · rw [holds, follow_other _ _ hcc, standing_other hcc]
      exact h.holds_iff name c'

/-- The observations after which a connection holds what it held, and claims nothing new. -/
theorem same (h : Consistent P s trace) {o : ServerObservation}
    (hlogged : s'.loggedUsers = s.loggedUsers)
    (haccounts : s'.database.accounts = s.database.accounts)
    (hheld : ((standing P c trace).observe P o).held = (standing P c trace).held)
    (hpending : ((standing P c trace).observe P o).pending = (standing P c trace).pending ∨
      ((standing P c trace).observe P o).pending = none)
    (hholding : ∀ name before, holding name before o = before) :
    Consistent P s' (trace ++ [(c, o)]) := by
  refine h.snoc ?_ ?_ fun name => ?_
  · rw [hlogged, hheld, Function.update_eq_self]
    exact h.names
  · rw [haccounts]
    rcases hpending with hsame | hnone
    · rw [hsame, Function.update_eq_self]
      exact h.accounts
    · rw [hnone]
      exact h.accounts.release fun r hr _ => hr
  · rw [hholding, hheld]
    exact h.holds_iff name c

end Consistent

@[simp] theorem standing_received (c' : ℕ) (session : Session) (request : RequestInfo) :
    standing P c' (trace ++ [(c, .received session request)]) = standing P c' trace := by
  by_cases hcc : c' = c
  · subst hcc
    exact standing_self ..
  · exact standing_other hcc _

/-- Ending a request changes the standing after the right code, and where a signup's account
is left behind. -/
theorem Standing.finished_cases (P : Platform) (st : Standing) (request : RequestInfo) :
    st.finished P request = st ∨
      (∃ account, st = .inserted account ∧ st.finished P request = .out) ∨
      ∃ id name code, st = .entered id name (some code) ∧ submittedCode P request = some code ∧
        st.finished P request = .member name := by
  unfold Standing.finished
  split
  · exact .inr (.inl ⟨_, rfl, rfl⟩)
  · split_ifs with hcode
    · exact .inr (.inr ⟨_, _, _, rfl, hcode, rfl⟩)
    · exact .inl rfl
  · exact .inl rfl

/-- Ending a request lets no name go. -/
theorem Standing.finished_held (st : Standing) (request : RequestInfo) :
    (st.finished P request).held = st.held := by
  rcases st.finished_cases P request with h | ⟨_, rfl, h⟩ | ⟨_, _, _, rfl, -, h⟩ <;> rw [h] <;> rfl

/-- Ending a request claims nothing. -/
theorem Standing.finished_pending (st : Standing) (request : RequestInfo) :
    (st.finished P request).pending = st.pending ∨ (st.finished P request).pending = none := by
  rcases st.finished_cases P request with h | ⟨_, rfl, h⟩ | ⟨_, _, _, rfl, -, h⟩ <;> rw [h]
  · exact .inl rfl
  · exact .inr rfl
  · exact .inr rfl

theorem Op.Ordinary.step {o : Op} (ho : o.Ordinary) {r : o.Answer}
    (h : (machine d).Step o s r s') :
    s'.loggedUsers = s.loggedUsers ∧ s'.database.accounts = s.database.accounts := by
  cases o with
  | login o => exact ho.elim
  | room o => rw [RoomOp.frame h]; exact ⟨rfl, rfl⟩
  | game o => rw [(GameOp.frame h).1]; exact ⟨rfl, rfl⟩
  | external o => rw [ExternalOp.step_eq h]; exact ⟨rfl, rfl⟩
  | database o =>
      obtain ⟨c, db, -, hx, rfl⟩ := DbOp.step_eq h
      refine ⟨rfl, DbOp.accounts_of_exec (E := fun _ => True) ?_ hx⟩
      cases o with
      | insertUser | removeUser | updateUser => exact ho.elim
      | _ => trivial

/-! ## One call -/

/-- How an allowed call can change the standing of its connection. -/
inductive StandingStep (d : Bool) : Standing → Event operations → Standing → Prop where
  | keep {st e} : StandingStep d st e st
  | insert {row id} : StandingStep d .out ⟨.database (.insertUser row), some id⟩
      (.inserted { row with id })
  | login {name} : StandingStep d .out ⟨.login (.tryLogin name), true⟩ (.member name)
  | enter {account} : StandingStep d (.inserted account)
      ⟨.login (.tryLogin account.username), true⟩ (.entered account.id account.username none)
  | refuse {account} : StandingStep d (.inserted account)
      ⟨.login (.tryLogin account.username), false⟩ .out
  | mail {id name mailed email code name'} : StandingStep d (.entered id name mailed)
      ⟨.external (.sendEmailVerification email code name'), none⟩ (.entered id name (some code))
  | remove {id name mailed} : StandingStep d (.entered id name mailed)
      ⟨.database (.removeUser id), some ()⟩ (.leaving name)
  | logout {st name} : st.held = some name →
      (d = true → ∀ id mailed, st ≠ .entered id name mailed) →
      StandingStep d st ⟨.login (.logout name), ()⟩ .out

theorem standingStep {st : Standing} {o : Op} {r : o.Answer} (ho : st.Allowed d o) :
    StandingStep d st ⟨o, r⟩ (st.called ⟨o, r⟩) := by
  by_cases hordinary : o.Ordinary
  · rw [hordinary.called st r]
    exact .keep
  · cases o with
    | room o => exact absurd trivial hordinary
    | game o => exact absurd trivial hordinary
    | login o =>
        cases o with
        | tryLogin name =>
            rcases ho with rfl | ⟨account, rfl, rfl⟩
            · cases r with
              | true => exact .login
              | false => exact .keep
            · cases r with
              | true => exact .enter
              | false => exact .refuse
        | logout name =>
            rw [show st.called ⟨.login (.logout name), r⟩ = .out from if_pos ho.1]
            exact .logout ho.1 ho.2
    | database o =>
        cases o with
        | insertUser row =>
            cases (show st = .out from ho)
            cases r with
            | none => exact .keep
            | some id => exact .insert
        | removeUser id =>
            obtain ⟨name, mailed, rfl⟩ := ho
            cases r with
            | none => exact .keep
            | some r => exact .remove
        | updateUser => exact .keep
        | _ => exact absurd trivial hordinary
    | external o =>
        cases o with
        | sendEmailVerification email code name =>
            cases r with
            | none =>
                cases st with
                | entered => exact .mail
                | _ => exact .keep
            | some e => exact .keep
        | _ => exact absurd trivial hordinary

theorem logged_iff {name : String} :
    s.loggedUsers.any (fun user => decide (user.username = name)) = true ↔
      name ∈ s.loggedUsers.map LoggedUser.username := by
  simp [List.any_eq_true]

/-- What a call does to the list of logged users and to the name that its connection holds. -/
inductive NameStep (s s' : Managers) (st st' : Standing) : Event operations → Prop where
  | same {e} : s'.loggedUsers = s.loggedUsers → st'.held = st.held →
      (∀ name before, holding name before (.called e) = before) → NameStep s s' st st' e
  | enter {name} : name ∉ s.loggedUsers.map LoggedUser.username →
      s'.loggedUsers = s.loggedUsers ++ [⟨name⟩] → st.held = none → st'.held = some name →
      NameStep s s' st st' ⟨.login (.tryLogin name), true⟩
  | leave {name} : s'.loggedUsers = s.loggedUsers.filter (fun user => user.username ≠ name) →
      st.held = some name → st'.held = none → NameStep s s' st st' ⟨.login (.logout name), ()⟩

/-- What a call does to the accounts and to the one that waits for its connection. -/
inductive AccountStep (s s' : Managers) (st st' : Standing) : Event operations → Prop where
  | same {e} : s'.database.accounts = s.database.accounts →
      (st'.pending = st.pending ∨ st'.pending = none) → AccountStep s s' st st' e
  | insert {row} : s.database.Inserted row s'.database → st = .out →
      st' = .inserted { row with id := s.database.nextUserId } →
      AccountStep s s' st st' ⟨.database (.insertUser row), some s.database.nextUserId⟩
  | remove {id name mailed} : s'.database = s.database.removeUser id →
      st = .entered id name mailed → st' = .leaving name →
      AccountStep s s' st st' ⟨.database (.removeUser id), some ()⟩

theorem tryLogin_cases {name : String} {r : Bool} {st : Standing}
    (ho : st = .out ∨ ∃ account, st = .inserted account ∧ account.username = name)
    (hs : (machine d).Step (.login (.tryLogin name)) s r s') :
    NameStep s s' st (st.called ⟨.login (.tryLogin name), r⟩) ⟨.login (.tryLogin name), r⟩ ∧
    AccountStep s s' st (st.called ⟨.login (.tryLogin name), r⟩)
      ⟨.login (.tryLogin name), r⟩ := by
  have hx := LoginOp.step_eq hs
  simp only [LoginOp.exec] at hx
  split_ifs at hx with htaken <;> cases hx
  · rcases ho with rfl | ⟨account, rfl, -⟩
    · exact ⟨.same rfl rfl fun _ _ => by simp [holding], .same rfl (.inl rfl)⟩
    · exact ⟨.same rfl rfl fun _ _ => by simp [holding], .same rfl (.inr rfl)⟩
  · have hfree := fun hmem => htaken (logged_iff.mpr hmem)
    rcases ho with rfl | ⟨account, rfl, rfl⟩
    · exact ⟨.enter hfree rfl rfl rfl, .same rfl (.inl rfl)⟩
    · exact ⟨.enter hfree rfl rfl rfl, .same rfl (.inl rfl)⟩

theorem insertUser_cases {row : User} {r : Option ℕ}
    (hs : (machine d).Step (.database (.insertUser row)) s r s') :
    s'.loggedUsers = s.loggedUsers ∧
    AccountStep s s' .out (Standing.out.called ⟨.database (.insertUser row), r⟩)
      ⟨.database (.insertUser row), r⟩ := by
  obtain ⟨_, db, -, hx, rfl⟩ := DbOp.step_eq hs
  refine ⟨rfl, ?_⟩
  cases r with
  | none =>
      cases DbOp.exec_none hx
      exact .same rfl (.inl rfl)
  | some id =>
      have hinsert : s.database.insertUser row = some (id, db) := by
        rcases DbOp.exec_cases hx with ⟨-, hnone, -⟩ | ⟨-, happly⟩
        · cases hnone
        · simp only [DbOp.apply] at happly
          split at happly <;> cases happly
          assumption
      obtain ⟨rfl, hins⟩ := Database.insertUser_eq_some hinsert
      exact .insert hins rfl rfl

theorem removeUser_database {id : ℕ} {r : Unit}
    (hs : (machine d).Step (.database (.removeUser id)) s (some r) s') :
    s'.database = s.database.removeUser id := by
  obtain ⟨_, db, -, hx, rfl⟩ := DbOp.step_eq hs
  rcases DbOp.exec_cases hx with ⟨-, hnone, -⟩ | ⟨-, happly⟩
  · cases hnone
  · cases happly
    rfl

theorem removeUser_cases {id : ℕ} {name : String} {mailed : Option String} {r : Option Unit}
    (hs : (machine d).Step (.database (.removeUser id)) s r s') :
    s'.loggedUsers = s.loggedUsers ∧
    AccountStep s s' (.entered id name mailed)
      ((Standing.entered id name mailed).called ⟨.database (.removeUser id), r⟩)
      ⟨.database (.removeUser id), r⟩ := by
  cases r with
  | none =>
      obtain ⟨_, db, -, hx, rfl⟩ := DbOp.step_eq hs
      cases DbOp.exec_none hx
      exact ⟨rfl, .same rfl (.inl rfl)⟩
  | some r =>
      have hdb := removeUser_database hs
      obtain ⟨_, db, -, -, rfl⟩ := DbOp.step_eq hs
      exact ⟨rfl, .remove hdb rfl rfl⟩

/-- All that an allowed call can do to the logged users and the accounts. -/
theorem called_cases {e : Bool} {st : Standing} {o : Op} {r : o.Answer} (ho : st.Allowed e o)
    (hs : (machine d).Step o s r s') :
    NameStep s s' st (st.called ⟨o, r⟩) ⟨o, r⟩ ∧ AccountStep s s' st (st.called ⟨o, r⟩) ⟨o, r⟩ := by
  have hordinary : o.Ordinary →
      NameStep s s' st (st.called ⟨o, r⟩) ⟨o, r⟩ ∧
      AccountStep s s' st (st.called ⟨o, r⟩) ⟨o, r⟩ := by
    intro ho
    obtain ⟨hlogged, haccounts⟩ := ho.step hs
    rw [ho.called st r]
    refine ⟨.same hlogged rfl fun name before => ?_, .same haccounts (.inl rfl)⟩
    cases o with
    | login o => exact ho.elim
    | _ => rfl
  cases o with
  | login o =>
      cases o with
      | tryLogin name => exact tryLogin_cases ho hs
      | logout name =>
          cases LoginOp.step_eq hs
          have hout : st.called ⟨.login (.logout name), ()⟩ = .out := by
            simp only [Standing.called, ho.1, if_true]
          rw [hout]
          exact ⟨.leave rfl ho.1 rfl, .same rfl (.inr rfl)⟩
  | room o => exact hordinary trivial
  | game o => exact hordinary trivial
  | database o =>
      cases o with
      | insertUser row =>
          cases (show st = .out from ho)
          obtain ⟨hlogged, haccounts⟩ := insertUser_cases hs
          exact ⟨.same hlogged (by cases r <;> rfl) fun _ _ => rfl, haccounts⟩
      | removeUser id =>
          obtain ⟨name, mailed, rfl⟩ := ho
          obtain ⟨hlogged, haccounts⟩ := removeUser_cases hs
          exact ⟨.same hlogged (by cases r <;> rfl) fun _ _ => rfl, haccounts⟩
      | updateUser name address phoneNumber password avatarColor =>
          obtain ⟨_, db, -, hx, rfl⟩ := DbOp.step_eq hs
          have hquiet : (Op.database (.updateUser name address phoneNumber password
            avatarColor)).Quiet fun _ => True := trivial
          exact ⟨.same rfl rfl fun _ _ => rfl, .same (DbOp.accounts_of_exec hquiet hx) (.inl rfl)⟩
      | _ => exact hordinary trivial
  | external o =>
      cases o with
      | sendEmailVerification email code name =>
          cases ExternalOp.step_eq hs
          have hsame : (st.called ⟨.external (.sendEmailVerification email code name), r⟩).held =
              st.held ∧
              (st.called ⟨.external (.sendEmailVerification email code name), r⟩).pending =
                st.pending := by
            cases r <;> cases st <;> exact ⟨rfl, rfl⟩
          exact ⟨.same rfl hsame.1 fun _ _ => rfl, .same rfl (.inl hsame.2)⟩
      | _ => exact hordinary trivial

/-! ## The invariant -/

namespace Consistent

theorem claimed_step {claim : ℕ → Option (ℕ × String)} {st st' : Standing}
    {e : Event operations} (h : Claimed Prod.fst s.database.accounts claim)
    (hc : claim c = st.pending) (hstep : AccountStep s s' st st' e) :
    Claimed Prod.fst s'.database.accounts (Function.update claim c st'.pending) := by
  cases hstep with
  | same haccounts hpending =>
      rw [haccounts]
      rcases hpending with hsame | hnone
      · rw [hsame, ← hc, Function.update_eq_self]
        exact h
      · rw [hnone]
        exact h.release fun r hr _ => hr
  | insert hins _ hst' =>
      rw [hins.accounts, hst']
      exact h.insert (Database.account_ne_next s.database)
  | @remove id name mailed hdb hst hst' =>
      rw [hdb, hst']
      refine h.release fun a ha hother => ?_
      exact Database.mem_accounts_removeUser.mpr ⟨ha, hother (id, name) (by rw [hc, hst]; rfl)⟩

/-- Every allowed call keeps the shared state consistent. -/
theorem called (h : Consistent P s trace) {e : Bool} {o : Op} {r : o.Answer}
    (ho : (standing P c trace).Allowed e o) (hs : (machine d).Step o s r s') :
    Consistent P s' (trace ++ [(c, .called ⟨o, r⟩)]) := by
  obtain ⟨hname, haccount⟩ := called_cases ho hs
  have haccounts := claimed_step h.accounts rfl haccount
  cases hname with
  | same hlogged hheld hholding =>
      refine h.snoc ?_ haccounts fun name => ?_
      · rw [hlogged, show ((standing P c trace).observe P (.called ⟨o, r⟩)).held =
          (standing P c trace).held from hheld, Function.update_eq_self]
        exact h.names
      · rw [hholding]
        exact (h.holds_iff name c).trans (by rw [← hheld]; rfl)
  | @enter name hfree hlogged hout hin =>
      refine h.snoc ?_ haccounts fun name' => ?_
      · rw [hlogged, List.map_append, show ((standing P c trace).observe P
          (.called ⟨.login (.tryLogin name), true⟩)).held = some name from hin]
        exact h.names.enter hfree hout
      · have hbefore := h.holds_iff name' c
        rw [hout] at hbefore
        rw [show ((standing P c trace).observe P
          (.called ⟨.login (.tryLogin name), true⟩)).held = some name from hin]
        simp only [holding, Bool.or_eq_true, hbefore, Bool.true_and, decide_eq_true_iff,
          Option.some.injEq, reduceCtorEq, false_or]
  | @leave name hlogged hin hout =>
      refine h.snoc ?_ haccounts fun name' => ?_
      · rw [hlogged, show ((standing P c trace).observe P
          (.called ⟨.login (.logout name), ()⟩)).held = none from hout]
        have hleave := h.names.leave hin
        rwa [List.filter_map] at hleave
      · have hbefore := h.holds_iff name' c
        rw [hin] at hbefore
        rw [show ((standing P c trace).observe P
          (.called ⟨.login (.logout name), ()⟩)).held = none from hout]
        simp only [holding, Bool.and_eq_true, hbefore, decide_eq_true_iff, Option.some.injEq,
          reduceCtorEq, iff_false, not_and, not_not, imp_self]

/-- A user found under the name of a waiting account is that account. -/
theorem pending_id (h : Consistent P s trace) {user : User} (hu : user ∈ s.database.users)
    {id : ℕ} (hc : (standing P c trace).pending = some (id, user.username)) : user.id = id :=
  Database.account_unique (List.mem_map_of_mem hu) (h.accounts.mem c _ hc)

theorem assumed (h : Consistent P s trace) {o : Op} {r : o.Answer}
    (hs : (machine d).Step o s r s') : (standing P c trace).Assumed false ⟨o, r⟩ := by
  cases o with
  | database o =>
      cases o with
      | selectUserIds name => exact fun hd => nomatch hd
      | removeUser id => exact fun hd => nomatch hd
      | getUsers name =>
          refine ⟨fun user rest hr id hc => ?_, fun hd => nomatch hd⟩
          obtain ⟨_, db, -, hx, -⟩ := DbOp.step_eq hs
          rcases DbOp.exec_cases hx with ⟨-, hnone, -⟩ | ⟨-, happly⟩
          · exact nomatch hnone.symm.trans hr
          · cases happly
            have hmem : user ∈ s.database.users.filter (·.username = name) :=
              List.mem_of_mem_take (Option.some.inj hr ▸ List.mem_cons_self)
            obtain ⟨hu, hname⟩ := List.mem_filter.mp hmem
            exact h.pending_id hu (of_decide_eq_true hname ▸ hc)
      | _ => trivial
  | _ => trivial

end Consistent

/-! ## Runs -/

theorem consistent_of_run {database : Database}
    {K : ServerConfig → Service.Label ℕ RequestInfo Bool → Prop} {cfg : ServerConfig}
    (hrun : Service.Reachable (handleClient P) (machine d) K (ServerConfig.init database) cfg) :
    Consistent P cfg.shared cfg.trace ∧ ∀ c, (connections P false).Keeps (handleClient P)
      (fun session => session.handler.Stands) (fun st => st = .out) cfg c := by
  refine (handleClient_obeys P false).reachable (I := Consistent P) ?_ ?_ ?_ hrun
    ⟨.init database, fun c => rfl⟩
  · intro cfg c session request h _ _ _
    exact h.same rfl rfl rfl (.inl rfl) fun _ _ => rfl
  · intro cfg c session request o next r s' h _ _ ho hs
    exact ⟨h.assumed hs, h.called ho hs⟩
  · intro s trace c session request r sent h _
    exact h.same rfl rfl (Standing.finished_held _ _) (Standing.finished_pending _ _)
      fun _ _ => rfl

/-- The name behind a handler. -/
def Handler.name : Handler → Option String
  | .login => none
  | .verification _ _ _ username => some username
  | .menu user => some user.username
  | .roomMember _ _ user => some user.username
  | .roomAdmin _ user => some user.username
  | .game _ user => some user.username

theorem Handler.Stands.held {h : Handler} {st : Standing} (hst : h.Stands st) :
    st.held = h.name := by
  cases h with
  | verification tries email code username =>
      obtain ⟨id, rfl⟩ := hst
      rfl
  | _ =>
      cases hst
      rfl

/-- The list of logged users names the connections that hold a name, one for each; between
two requests a connection holds the name of its handler and no other. -/
structure OneConnectionPerName (cfg : ServerConfig) : Prop where
  nodup : (cfg.shared.loggedUsers.map LoggedUser.username).Nodup
  logged_iff : ∀ name, name ∈ cfg.shared.loggedUsers.map LoggedUser.username ↔
    ∃! c, holds name c cfg.trace = true
  unique : ∀ name c c', holds name c cfg.trace = true → holds name c' cfg.trace = true → c = c'
  waiting : ∀ c session, cfg.clients c = .idle session →
    ∀ name, holds name c cfg.trace = true ↔ session.handler.name = some name
  ended : ∀ c, cfg.clients c = .ended → ∀ name, holds name c cfg.trace = false

theorem oneConnectionPerName {cfg : ServerConfig} (hrun : InterleavedRun P false cfg) :
    OneConnectionPerName cfg := by
  obtain ⟨database, hrun⟩ := hrun
  obtain ⟨hinv, hkeeps⟩ := consistent_of_run hrun
  have hunique : ∀ name c c', holds name c cfg.trace = true → holds name c' cfg.trace = true →
      c = c' := by
    intro name c c' hc hc'
    exact hinv.names.unique c c' name ((hinv.holds_iff name c).mp hc)
      ((hinv.holds_iff name c').mp hc')
  refine ⟨hinv.names.nodup, fun name => ?_, hunique, fun c session hc name => ?_,
    fun c hc name => ?_⟩
  · rw [hinv.names.mem_iff]
    constructor
    · rintro ⟨c, hc⟩
      have hholds := (hinv.holds_iff name c).mpr hc
      exact ⟨c, hholds, fun c' hc' => hunique name c' c hc' hholds⟩
    · rintro ⟨c, hc, -⟩
      exact ⟨c, (hinv.holds_iff name c).mp hc⟩
  · have hstands := hkeeps c
    rw [Discipline.Keeps, hc] at hstands
    rw [hinv.holds_iff, show (standing P c cfg.trace).held = session.handler.name from
      Handler.Stands.held hstands]
  · have hout := hkeeps c
    rw [Discipline.Keeps, hc] at hout
    have hst : standing P c cfg.trace = .out := hout
    have hiff := hinv.holds_iff name c
    rw [hst] at hiff
    exact Bool.eq_false_iff.mpr fun htrue => by cases hiff.mp htrue

/-- Connection 0 signs `eve` up while connection 1 logs in as `eve`: the signup enters the name
first, and the login finds it taken. -/
def signupBeforeLogin : List ServerPlay :=
  [.connect 0, .connect 1, .receive 0 (sampleRequest .signupRequest 2)] ++
  calls 0 (List.replicate 5 usual) ++ [.receive 1 (sampleRequest .loginRequest 3)] ++
  calls 1 [usual, usual] ++ calls 0 (List.replicate 5 usual) ++ calls 1 [usual] ++
  [.finish 0 true, .finish 1 true]

theorem oneConnectionPerName_signupBeforeLogin :
    ∃ cfg, replayServer samplePlatform false .empty signupBeforeLogin = some cfg ∧
      OneConnectionPerName cfg ∧ cfg.shared.loggedUsers = [⟨"eve"⟩] ∧
      holds "eve" 0 cfg.trace = true ∧ holds "eve" 1 cfg.trace = false := by
  have hrun : ((replayServer samplePlatform false .empty signupBeforeLogin).any fun cfg =>
      cfg.shared.loggedUsers = [⟨"eve"⟩] ∧ holds "eve" 0 cfg.trace = true ∧
        holds "eve" 1 cfg.trace = false) = true := by decide +kernel
  obtain ⟨cfg, hcfg, hcheck⟩ := (Option.any_eq_true _ _).mp hrun
  exact ⟨cfg, hcfg, oneConnectionPerName (interleavedRun_of_replay hcfg),
    of_decide_eq_true hcheck⟩

end TriviaServer
