import Mathlib.Data.List.Induction
import TriviaServer.Verification.LoggedNames

/-! # A verified account is never deleted

An account is settled if it was there at the start or if its code was submitted while it was
waiting for it. A removal only ever finds the account of the connection's own last signup,
which is not settled then; so settled accounts stay. -/

namespace TriviaServer

open Interaction

/-- The account that a connection has inserted last. -/
def signingUp (before : Option (ℕ × String)) : ServerObservation → Option (ℕ × String)
  | .called ⟨.database (.insertUser row), some id⟩ => some (id, row.username)
  | _ => before

def lastSignup (c : ℕ) (trace : ServerTrace) : Option (ℕ × String) := follow signingUp none c trace

/-- A request ends that has submitted the code mailed for the account, to the connection that
has signed it up and still waits for the code. -/
def Verifies (P : Platform) (account : ℕ × String) (before : ServerTrace)
    (e : ℕ × ServerObservation) : Prop :=
  ∃ session request r next code, e.2 = .finished session request r next ∧
    standing P e.1 before = .entered account.1 account.2 (some code) ∧
    submittedCode P request = some code

/-- The accounts from before the run, and those verified in it. -/
def Settled (P : Platform) (database : Database) (trace : ServerTrace) (account : ℕ × String) :
    Prop :=
  account ∈ database.accounts ∨ Sometime (Verifies P account) trace

/-- A removal that is carried out concerns the account of the connection's own last signup,
and that account is not settled. -/
def RemovesOwn (P : Platform) (database : Database) (before : ServerTrace)
    (e : ℕ × ServerObservation) : Prop :=
  ∀ id, e.2 = .called ⟨.database (.removeUser id), some ()⟩ →
    ∃ name, lastSignup e.1 before = some (id, name) ∧ ¬ Settled P database before (id, name)

variable {P : Platform} {d : Bool} {s s' : Managers} {trace : ServerTrace} {c : ℕ}
variable {database : Database}

theorem Standing.observe_pending {st : Standing} {o : ServerObservation} {account : ℕ × String}
    (h : (st.observe P o).pending = some account) :
    (∀ before, signingUp before o = some account) ∨
      (st.pending = some account ∧ ∀ before, signingUp before o = before) := by
  cases o with
  | received => exact .inr ⟨h, fun _ => rfl⟩
  | finished session request r next =>
      refine .inr ⟨?_, fun _ => rfl⟩
      rcases Standing.finished_pending (P := P) st request with hsame | hnone
      · exact hsame ▸ h
      · cases hnone.symm.trans h
  | called e =>
      obtain ⟨o, r⟩ := e
      by_cases ho : o.Ordinary
      · refine .inr ⟨ho.called st r ▸ h, fun before => ?_⟩
        cases o with
        | database o =>
            cases o with
            | insertUser => exact ho.elim
            | _ => rfl
        | _ => rfl
      · cases o with
        | room o => exact absurd trivial ho
        | game o => exact absurd trivial ho
        | login o =>
            refine .inr ⟨?_, fun _ => rfl⟩
            cases o with
            | tryLogin name =>
                cases r <;> cases st <;>
                  first | exact h | cases (show none = some account from h)
            | logout name =>
                simp only [Standing.observe, Standing.called] at h
                split_ifs at h
                · cases h
                · exact h
        | external o =>
            refine .inr ⟨?_, fun _ => rfl⟩
            cases o with
            | sendEmailVerification => cases r <;> cases st <;> exact h
            | _ => exact absurd trivial ho
        | database o =>
            cases o with
            | insertUser row =>
                cases r with
                | none => exact .inr ⟨h, fun _ => rfl⟩
                | some id => exact .inl fun _ => h
            | removeUser id =>
                refine .inr ⟨?_, fun _ => rfl⟩
                cases r <;> cases st <;>
                  first | exact h | cases (show none = some account from h)
            | updateUser => exact .inr ⟨h, fun _ => rfl⟩
            | _ => exact absurd trivial ho

/-- A waiting account is always the one of the last signup. -/
theorem lastSignup_of_pending {account : ℕ × String}
    (h : (standing P c trace).pending = some account) : lastSignup c trace = some account := by
  induction trace using List.reverseRecOn with
  | nil => exact nomatch h
  | append_singleton trace e ih =>
      obtain ⟨c', o⟩ := e
      by_cases hcc : c = c'
      · subst hcc
        rw [standing_self] at h
        rw [lastSignup, follow_self]
        rcases Standing.observe_pending h with hnew | ⟨hold, hsame⟩
        · exact hnew _
        · rw [hsame]
          exact ih hold
      · rw [standing_other hcc] at h
        rw [lastSignup, follow_other _ _ hcc]
        exact ih h

/-! ## The invariant -/

/-- Settled accounts are in the table and wait for no code, and no removal has touched one. -/
structure Preserved (P : Platform) (database : Database) (s : Managers) (trace : ServerTrace) :
    Prop where
  consistent : Consistent P s trace
  settled_mem : ∀ account, Settled P database trace account → account ∈ s.database.accounts
  settled_unclaimed : ∀ account, Settled P database trace account →
    ∀ c id name, (standing P c trace).pending = some (id, name) → id ≠ account.1
  removals : Throughout (RemovesOwn P database) trace

theorem settled_snoc {e : ℕ × ServerObservation} {account : ℕ × String} :
    Settled P database (trace ++ [e]) account ↔
      Settled P database trace account ∨ Verifies P account trace e := by
  rw [Settled, sometime_snoc, ← or_assoc]
  rfl

theorem not_verifies {account : ℕ × String} {e : ℕ × ServerObservation}
    (h : ∀ session request r next, e.2 ≠ .finished session request r next) :
    ¬ Verifies P account trace e := by
  rintro ⟨session, request, r, next, -, he, -⟩
  exact h _ _ _ _ he

namespace Preserved

theorem init (database : Database) : Preserved P database (.init database) [] where
  consistent := .init database
  settled_mem _ h := h.elim id fun h => absurd h not_sometime_nil
  settled_unclaimed _ _ _ _ _ h := nomatch h
  removals := throughout_nil

/-- The observations that verify nothing. -/
theorem snoc (h : Preserved P database s trace) {o : ServerObservation}
    (hconsistent : Consistent P s' (trace ++ [(c, o)]))
    (hverifies : ∀ account, ¬ Verifies P account trace (c, o))
    (hmem : ∀ account, Settled P database trace account → account ∈ s'.database.accounts)
    (hclaim : ∀ account, Settled P database trace account →
      ∀ id name, ((standing P c trace).observe P o).pending = some (id, name) → id ≠ account.1)
    (hremoves : RemovesOwn P database trace (c, o)) :
    Preserved P database s' (trace ++ [(c, o)]) where
  consistent := hconsistent
  settled_mem account ha := (settled_snoc.mp ha).elim (hmem account) fun hv =>
    absurd hv (hverifies account)
  settled_unclaimed account hsettled c' id name hc' := by
    have ha := (settled_snoc.mp hsettled).resolve_right (hverifies account)
    by_cases hcc : c' = c
    · subst hcc
      rw [standing_self] at hc'
      exact hclaim account ha id name hc'
    · rw [standing_other hcc] at hc'
      exact h.settled_unclaimed account ha c' id name hc'
  removals := throughout_snoc.mpr ⟨h.removals, hremoves⟩

theorem received (h : Preserved P database s trace) (session : Session) (request : RequestInfo) :
    Preserved P database s (trace ++ [(c, .received session request)]) :=
  h.snoc (h.consistent.same rfl rfl rfl (.inl rfl) fun _ _ => rfl)
    (fun _ => not_verifies fun _ _ _ _ => nofun) h.settled_mem
    (fun account ha id name hc => h.settled_unclaimed account ha c id name hc) fun _ => nofun

theorem called (h : Preserved P database s trace) {e : Bool} {o : Op} {r : o.Answer}
    (ho : (standing P c trace).Allowed e o) (hs : (machine d).Step o s r s') :
    Preserved P database s' (trace ++ [(c, .called ⟨o, r⟩)]) := by
  have hstep := (called_cases ho hs).2
  refine h.snoc (h.consistent.called ho hs) (fun _ => not_verifies fun _ _ _ _ => nofun)
    (fun account ha => ?_) (fun account ha id name hc => ?_) fun id hid => ?_
  · have hmem := h.settled_mem account ha
    cases hstep with
    | same haccounts _ => exact haccounts ▸ hmem
    | insert hins _ _ =>
        rw [hins.accounts]
        exact List.mem_append_left _ hmem
    | remove hdb hst _ =>
        rw [hdb]
        refine Database.mem_accounts_removeUser.mpr ⟨hmem, fun heq => ?_⟩
        exact h.settled_unclaimed account ha c _ _ (by rw [hst]; rfl) heq.symm
  · have hmem := h.settled_mem account ha
    cases hstep with
    | same _ hpending =>
        rcases hpending with hsame | hnone
        · exact h.settled_unclaimed account ha c id name (hsame ▸ hc)
        · exact nomatch hnone.symm.trans hc
    | insert hins _ hst' =>
        have hnext : (s.database.nextUserId, _) = (id, name) :=
          Option.some.inj ((congrArg Standing.pending hst').symm.trans hc)
        cases hnext
        exact (Database.account_ne_next s.database account hmem).symm
    | remove _ _ hst' => exact nomatch (congrArg Standing.pending hst').symm.trans hc
  · cases hid
    obtain ⟨name, mailed, hst⟩ := ho
    have hpending : (standing P c trace).pending = some (id, name) := by
      rw [hst]
      rfl
    exact ⟨name, lastSignup_of_pending hpending,
      fun ha => h.settled_unclaimed _ ha c id name hpending rfl⟩

theorem finished (h : Preserved P database s trace) (session : Session) (request : RequestInfo)
    (r : RequestResult) (next : Option Session) :
    Preserved P database s (trace ++ [(c, .finished session request r next)]) := by
  have hconsistent : Consistent P s (trace ++ [(c, .finished session request r next)]) :=
    h.consistent.same rfl rfl (Standing.finished_held _ _) (Standing.finished_pending _ _)
      fun _ _ => rfl
  -- an account that is verified now was claimed by this connection, and is no longer
  have hverified : ∀ account, Verifies P account trace (c, .finished session request r next) →
      (standing P c trace).pending = some account ∧
      ((standing P c trace).finished P request).pending = none := by
    rintro account ⟨_, _, _, _, code, heq, hst, hcode⟩
    cases heq
    simp only [hst, Standing.finished, hcode, if_true]
    exact ⟨rfl, rfl⟩
  refine ⟨hconsistent, fun account ha => ?_, fun account ha c' id name hc' => ?_,
    throughout_snoc.mpr ⟨h.removals, fun _ heq => by cases heq⟩⟩
  · rcases settled_snoc.mp ha with ha | hv
    · exact h.settled_mem account ha
    · exact h.consistent.accounts.mem c account (hverified account hv).1
  · by_cases hcc : c' = c
    · subst hcc
      rw [standing_self] at hc'
      rcases settled_snoc.mp ha with ha | hv
      · rcases Standing.finished_pending (P := P) (standing P c' trace) request with hsame | hnone
        · exact h.settled_unclaimed account ha c' id name (hsame ▸ hc')
        · cases hnone.symm.trans hc'
      · cases (hverified account hv).2.symm.trans hc'
    · rw [standing_other hcc] at hc'
      rcases settled_snoc.mp ha with ha | hv
      · exact h.settled_unclaimed account ha c' id name hc'
      · intro heq
        exact hcc (h.consistent.accounts.unique c' c _ _ hc' (hverified account hv).1 heq)

end Preserved

/-! ## Runs -/

theorem preserved_of_run {K : ServerConfig → Service.Label ℕ RequestInfo Bool → Prop}
    {cfg : ServerConfig}
    (hrun : Service.Reachable (handleClient P) (machine d) K (ServerConfig.init database) cfg) :
    Preserved P database cfg.shared cfg.trace := by
  refine ((handleClient_obeys P false).reachable (I := Preserved P database) ?_ ?_ ?_ hrun
    ⟨.init database, fun c => rfl⟩).1
  · intro cfg c session request h _ _ _
    exact h.received session request
  · intro cfg c session request o next r s' h _ _ ho hs
    exact ⟨h.consistent.assumed hs, h.called ho hs⟩
  · intro s trace c session request r sent h _
    exact h.finished session request r _

/-- In every run from the start on a database, whatever the database and e-mail calls return,
each removal concerns the connection's own last signup, not settled; and every account that
has been settled at some point is still in the table. -/
theorem settledAccountsStay {cfg : ServerConfig}
    (hrun : Service.Reachable (handleClient P) (machine false) (fun _ _ => True)
      (ServerConfig.init database) cfg) :
    Throughout (RemovesOwn P database) cfg.trace ∧
      ∀ before after account, cfg.trace = before ++ after → Settled P database before account →
        account ∈ cfg.shared.database.accounts := by
  have hpreserved := preserved_of_run hrun
  refine ⟨hpreserved.removals, fun before after account htrace ha => ?_⟩
  refine hpreserved.settled_mem account ?_
  rw [htrace]
  exact ha.imp id fun hv => hv.append after

/-- `eve` signs up, and leaves before she has entered the code. -/
def signupAndLeave : List ServerPlay :=
  [.connect 0, .receive 0 (sampleRequest .signupRequest 2)] ++ calls 0 (List.replicate 10 usual) ++
  [.finish 0 true, .receive 0 exitRequest] ++ calls 0 (List.replicate 3 usual) ++
  [.finish 0 false]

theorem settledAccountsStay_signupAndLeave :
    ∃ cfg, replayServer samplePlatform false sampleDatabase signupAndLeave = some cfg ∧
      Throughout (RemovesOwn samplePlatform sampleDatabase) cfg.trace ∧
      cfg.shared.database.nextUserId = 4 ∧
      cfg.shared.database.accounts = [(1, "ann"), (2, "bob")] := by
  have hrun : ((replayServer samplePlatform false sampleDatabase signupAndLeave).any fun cfg =>
      cfg.shared.database.nextUserId = 4 ∧
        cfg.shared.database.accounts = [(1, "ann"), (2, "bob")]) = true := by decide +kernel
  obtain ⟨cfg, hcfg, hcheck⟩ := (Option.any_eq_true _ _).mp hrun
  exact ⟨cfg, hcfg, (settledAccountsStay (reachable_of_replay hcfg fun _ _ _ => trivial)).1,
    of_decide_eq_true hcheck⟩

end TriviaServer
