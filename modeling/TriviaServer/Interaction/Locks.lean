import Mathlib.Data.List.Induction
import TriviaServer.Interaction.Discipline

/-! # Locks

Between its calls a program may take and release locks. What a client holds can be read off its
own part of the trace, and a client goes on when its next lock is to be had. Clients that take
their locks in an order never wait for each other in a circle, and clients that make each call
under the locks it needs are never in the way of each other. -/

namespace Interaction

inductive LockMode where
  | shared
  | exclusive
  deriving DecidableEq, Repr

/-- A call, or a step of a lock. -/
inductive LockingOp (S : Signature) (L : Type) where
  | act (o : S.Op)
  | acquire (l : L) (mode : LockMode)
  | release (l : L)

abbrev LockingOp.Answer {S : Signature} {L : Type} : LockingOp S L → Type
  | .act o => S.Answer o
  | .acquire .. => Unit
  | .release _ => Unit

/-- The operations of a signature, and those of locks. -/
abbrev Signature.locking (S : Signature) (L : Type) : Signature := ⟨LockingOp S L, LockingOp.Answer⟩

namespace Program

variable {S : Signature} {L α β : Type}

/-- The program without its locks. -/
def erase : Program (S.locking L) α → Program S α
  | .pure a => .pure a
  | .perform (.act o) next => .perform o fun r => (next r).erase
  | .perform (.acquire _ _) next => (next ()).erase
  | .perform (.release _) next => (next ()).erase

/-- A program that holds a lock from its start to its end. -/
def within (l : L) (mode : LockMode) (p : Program (S.locking L) α) : Program (S.locking L) α := do
  let _ ← call (S := S.locking L) (.acquire l mode)
  let a ← p
  let _ ← call (S := S.locking L) (.release l)
  return a

def act (o : S.Op) : Program (S.locking L) (S.Answer o) := call (S := S.locking L) (.act o)

/-- The program with each of its calls made in its locks. -/
def locked (inLocks : ∀ o : S.Op, Program (S.locking L) (S.Answer o)) :
    Program S α → Program (S.locking L) α
  | .pure a => .pure a
  | .perform o next => inLocks o >>= fun r => (next r).locked inLocks

@[simp] theorem erase_pure (a : α) :
    (Pure.pure a : Program (S.locking L) α).erase = Pure.pure a := rfl

@[simp] theorem erase_act (o : S.Op) : (act o : Program (S.locking L) _).erase = call o := rfl

@[simp] theorem erase_bind (p : Program (S.locking L) α) (f : α → Program (S.locking L) β) :
    (p >>= f).erase = p.erase >>= fun a => (f a).erase := by
  induction p with
  | pure a => rfl
  | perform o next ih =>
      cases o with
      | act o => exact congrArg (Program.perform o) (funext ih)
      | acquire l mode => exact ih ()
      | release l => exact ih ()

@[simp] theorem erase_map (f : α → β) (p : Program (S.locking L) α) :
    (f <$> p).erase = f <$> p.erase := by
  rw [map_eq_pure_bind, map_eq_pure_bind, erase_bind]
  rfl

@[simp] theorem erase_within (l : L) (mode : LockMode) (p : Program (S.locking L) α) :
    (within l mode p).erase = p.erase := by
  have h : (within l mode p).erase = p.erase >>= fun a => pure a := by
    simp only [within, erase_bind]
    rfl
  exact h.trans (bind_pure p.erase)

end Program

section Machines

variable {S : Signature} {L σ ε χ : Type}

/-- A lock changes nothing but who holds it. -/
def Machine.locking (M : Machine S σ ε) (L : Type) : Machine (S.locking L) σ ε where
  Step
    | .act o, s, r, s' => M.Step o s r s'
    | .acquire .., s, _, s' => s' = s
    | .release _, s, _, s' => s' = s
  Fault
    | .act o, s, e => M.Fault o s e
    | _, _, _ => False

def Interpreter.locking (I : Interpreter S σ χ ε) (L : Type) :
    Interpreter (S.locking L) σ χ ε where
  exec
    | .act o, c, s => I.exec o c s
    | .acquire .., _, s => .ok ((), s)
    | .release _, _, s => .ok ((), s)

/-- The environment has nothing to decide about a lock. -/
def admitsLocking (admits : S.Op → χ → σ → Bool) (L : Type) : LockingOp S L → χ → σ → Bool
  | .act o, c, s => admits o c s
  | _, _, _ => true

theorem Interpreter.machine_locking [Nonempty χ] (I : Interpreter S σ χ ε)
    (admits : S.Op → χ → σ → Bool) :
    (I.locking L).machine (admitsLocking admits L) = (I.machine admits).locking L := by
  have hsame (s s' : σ) (r : Unit) :
      (∃ _ : χ, true = true ∧ (Except.ok ((), s) : Except ε (Unit × σ)) = .ok (r, s')) ↔
        s' = s := by
    simp [eq_comm]
  have hnever (s : σ) (e : ε) :
      ¬ ∃ _ : χ, true = true ∧ (Except.ok ((), s) : Except ε (Unit × σ)) = .error e := by
    simp
  simp only [machine, Machine.locking, Machine.mk.injEq]
  constructor
  · funext o s r s'
    cases o with
    | act o => rfl
    | _ => exact propext (hsame s s' r)
  · funext o s e
    cases o with
    | act o => rfl
    | _ => exact propext (iff_of_false (hnever s e) not_false)

end Machines

/-! ## Who holds what -/

section Held

variable {S : Signature} {L σ ε ι Data Input Result Outcome : Type} [DecidableEq L] [DecidableEq ι]

/-- What a party holds after a step of it; the lock taken last comes first. -/
def heldAfter (held : List (L × LockMode)) : Event (S.locking L) → List (L × LockMode)
  | ⟨.act _, _⟩ => held
  | ⟨.acquire l mode, _⟩ => (l, mode) :: held
  | ⟨.release l, _⟩ => held.eraseP fun e => e.1 = l

def observeHeld (held : List (L × LockMode)) :
    Observation (S.locking L) Data Input Result → List (L × LockMode)
  | .called e => heldAfter held e
  | _ => held

/-- The locks that a client holds. -/
def heldBy (c : ι) (trace : List (ι × Observation (S.locking L) Data Input Result)) :
    List (L × LockMode) :=
  follow observeHeld [] c trace

/-- Who is let in first where some wait for a lock alone and others share it: those who share
it, or those who wait. -/
inductive LockPolicy where
  | readers
  | writers
  deriving DecidableEq, Repr

variable (policy : LockPolicy) (cfg : Config (S.locking L) σ ι Data Input Result)

/-- A client waits for a lock alone, or is about to. -/
def Awaits (c : ι) (l : L) : Prop := (cfg.clients c).nextOp = some (.acquire l .exclusive)

def ToBeHad (l : L) : LockMode → Prop
  | .exclusive => ∀ c mode, (l, mode) ∉ heldBy c cfg.trace
  | .shared => (∀ c, (l, .exclusive) ∉ heldBy c cfg.trace) ∧
      (policy = .writers → ∀ c, ¬ Awaits cfg c l)

/-- The steps of a run with locks: no lock is taken that is not to be had. -/
def LocksFree : Service.Label ι Input Outcome → Prop
  | .perform c => ∀ l mode, (cfg.clients c).nextOp = some (.acquire l mode) →
      ToBeHad policy cfg l mode
  | _ => True

/-- Who holds a lock alone is the only one that holds it. -/
def Excluding (trace : List (ι × Observation (S.locking L) Data Input Result)) : Prop :=
  ∀ c l, (l, .exclusive) ∈ heldBy c trace →
    ∀ c' mode, (l, mode) ∈ heldBy c' trace → c' = c ∧ mode = .exclusive

variable {policy cfg} {trace : List (ι × Observation (S.locking L) Data Input Result)}

theorem heldBy_self (c : ι) (o : Observation (S.locking L) Data Input Result) :
    heldBy c (trace ++ [(c, o)]) = observeHeld (heldBy c trace) o :=
  follow_self ..

theorem heldBy_other {c c' : ι} (h : c' ≠ c) (o : Observation (S.locking L) Data Input Result) :
    heldBy c' (trace ++ [(c, o)]) = heldBy c' trace :=
  follow_other _ _ h trace o

/-- Holding less excludes as much. -/
theorem Excluding.snoc (h : Excluding trace) {c : ι}
    {o : Observation (S.locking L) Data Input Result}
    (hless : ∀ e ∈ observeHeld (heldBy c trace) o, e ∈ heldBy c trace) :
    Excluding (trace ++ [(c, o)]) := by
  have hall (c' : ι) : ∀ e ∈ heldBy c' (trace ++ [(c, o)]), e ∈ heldBy c' trace := by
    intro e he
    by_cases hc : c' = c
    · subst hc
      rw [heldBy_self] at he
      exact hless e he
    · rwa [heldBy_other hc] at he
  intro c₁ l h₁ c₂ mode h₂
  exact h c₁ l (hall c₁ _ h₁) c₂ mode (hall c₂ _ h₂)

/-- A lock that is to be had may be taken. -/
theorem Excluding.acquire (h : Excluding cfg.trace) {c : ι} {l : L} {mode : LockMode}
    (hfree : ToBeHad policy cfg l mode) :
    Excluding (cfg.trace ++ [(c, .called ⟨.acquire l mode, ()⟩)]) := by
  have hsplit (c' : ι) (e : L × LockMode)
      (he : e ∈ heldBy c' (cfg.trace ++ [(c, .called ⟨.acquire l mode, ()⟩)])) :
      (c' = c ∧ e = (l, mode)) ∨ e ∈ heldBy c' cfg.trace := by
    by_cases hc : c' = c
    · subst hc
      rw [heldBy_self] at he
      exact (List.mem_cons.mp he).imp_left fun heq => ⟨rfl, heq⟩
    · rw [heldBy_other hc] at he
      exact .inr he
  intro c₁ l₁ h₁ c₂ mode₂ h₂
  rcases hsplit c₁ _ h₁ with ⟨rfl, heq₁⟩ | hold₁
  · cases heq₁
    rcases hsplit c₂ _ h₂ with ⟨rfl, heq₂⟩ | hold₂
    · cases heq₂
      exact ⟨rfl, rfl⟩
    · exact absurd hold₂ (hfree c₂ mode₂)
  · rcases hsplit c₂ _ h₂ with ⟨rfl, heq₂⟩ | hold₂
    · cases heq₂
      cases mode with
      | shared => exact absurd hold₁ (hfree.1 c₁)
      | exclusive => exact absurd hold₁ (hfree c₁ .exclusive)
    · exact h c₁ l₁ hold₁ c₂ mode₂ hold₂

theorem ToBeHad.readers {l : L} {mode : LockMode} (h : ToBeHad policy cfg l mode) :
    ToBeHad .readers cfg l mode := by
  cases mode with
  | shared => exact ⟨h.1, fun hpolicy => by cases hpolicy⟩
  | exclusive => exact h

theorem LocksFree.readers {label : Service.Label ι Input Outcome}
    (h : LocksFree policy cfg label) : LocksFree .readers cfg label := by
  cases label with
  | perform c => exact fun l mode hnext => (h l mode hnext).readers
  | _ => trivial

end Held

/-! ## Rules for locks -/

/-- Ranks of the locks, the clients that may share a lock once more, and the locks that a call
needs. -/
structure LockRules (S : Signature) (L Data : Type) where
  rank : L → ℕ
  bound : ℕ
  rank_lt : ∀ l, rank l < bound
  reenters : Data → L → Prop
  needs : S.Op → L → LockMode → Prop

section Rules

variable {S : Signature} {L Data α β : Type} (R : LockRules S L Data) (d : Data)

/-- The next lock ranks behind all that are held, or is shared already and may be once more. -/
def LockRules.MayTake (held : List (L × LockMode)) (l : L) (mode : LockMode) : Prop :=
  (∀ e ∈ held, R.rank e.1 < R.rank l) ∨
    mode = .shared ∧ (l, .shared) ∈ held ∧ R.reenters d l

/-- All locks that a call needs are held; who holds one alone may share it. -/
def LockRules.MayAct (held : List (L × LockMode)) (o : S.Op) : Prop :=
  ∀ l mode, R.needs o l mode → (l, mode) ∈ held ∨ (l, .exclusive) ∈ held

variable [DecidableEq L]

/-- A program that keeps to the rules, from what is held at its start to what is held at its
end. -/
def KeepsRules (final : List (L × LockMode)) :
    List (L × LockMode) → Program (S.locking L) α → Prop
  | held, .pure _ => held = final
  | held, .perform (.act o) next => R.MayAct held o ∧ ∀ r, KeepsRules final held (next r)
  | held, .perform (.acquire l mode) next =>
      R.MayTake d held l mode ∧ KeepsRules final ((l, mode) :: held) (next ())
  | held, .perform (.release l) next =>
      KeepsRules final (held.eraseP fun e => e.1 = l) (next ())

variable {R d} {held middle final : List (L × LockMode)}

theorem keepsRules_pure (a : α) : KeepsRules R d held held (pure a : Program (S.locking L) α) :=
  rfl

theorem keepsRules_act {o : S.Op} (h : R.MayAct held o) :
    KeepsRules R d held held (Program.act o : Program (S.locking L) (S.Answer o)) :=
  ⟨h, fun _ => rfl⟩

theorem KeepsRules.bind {p : Program (S.locking L) α} {f : α → Program (S.locking L) β}
    (hp : KeepsRules R d middle held p) (hf : ∀ a, KeepsRules R d final middle (f a)) :
    KeepsRules R d final held (p >>= f) := by
  induction p generalizing held with
  | pure a =>
      cases hp
      exact hf a
  | perform o next ih =>
      cases o with
      | act o => exact ⟨hp.1, fun r => ih r (hp.2 r)⟩
      | acquire l mode => exact ⟨hp.1, ih () hp.2⟩
      | release l => exact ih () hp

theorem KeepsRules.within {l : L} {mode : LockMode} {p : Program (S.locking L) α}
    (hl : R.MayTake d held l mode)
    (hp : KeepsRules R d ((l, mode) :: held) ((l, mode) :: held) p) :
    KeepsRules R d held held (Program.within l mode p) := by
  have hrelease (a : α) : KeepsRules R d held ((l, mode) :: held)
      (Program.call (S := S.locking L) (.release l) >>= fun _ => pure a) := by
    show (((l, mode) :: held).eraseP fun e => decide (e.1 = l)) = held
    simp
  exact ⟨hl, KeepsRules.bind (p := p) hp hrelease⟩

theorem keepsRules_locked {inLocks : ∀ o : S.Op, Program (S.locking L) (S.Answer o)}
    {p : Program S α} (h : p.Only fun o => KeepsRules R d held held (inLocks o)) :
    KeepsRules R d held held (p.locked inLocks) := by
  induction p with
  | pure a => rfl
  | perform o next ih => exact KeepsRules.bind h.1 fun r => ih r (h.2 r)

end Rules

section Runs

variable {S : Signature} {L σ ε ι Data Input Result Outcome : Type} [DecidableEq L]
variable [DecidableEq ι] (R : LockRules S L Data)

/-- A client stands at the request it serves and at what it holds. -/
def LockRules.discipline :
    Discipline (S.locking L) Data Input Result (Option Data × List (L × LockMode)) where
  initial := (none, [])
  observe st o :=
    (match o with
      | .received d _ => some d
      | _ => st.1, observeHeld st.2 o)
  allowed st
    | .act o => R.MayAct st.2 o
    | .acquire l mode => ∃ d ∈ st.1, R.MayTake d st.2 l mode
    | .release _ => True
  assumed _ _ := True
  mayFinish _ _ _ _ := True

variable {R} {V : Service (S.locking L) Data Input Result Outcome} {M : Machine S σ ε}

theorem KeepsRules.wp {d : Data} {final held : List (L × LockMode)}
    {p : Program (S.locking L) Result} (h : KeepsRules R d final held p)
    {Q : List (Event (S.locking L)) → Result → Option Data × List (L × LockMode) → Prop}
    (hQ : ∀ t a, Q t a (some d, final)) :
    Interaction.wp (R.discipline : Discipline (S.locking L) Data Input Result _).machine
      (fun _ => False) p Q (some d, held) := by
  induction p generalizing held Q with
  | pure a =>
      cases h
      exact hQ [] a
  | perform o next ih =>
      cases o with
      | act o =>
          refine ⟨fun _ hf => hf h.1, ?_⟩
          rintro r _ ⟨-, rfl⟩
          exact ih r (h.2 r) fun _ _ => hQ _ _
      | acquire l mode =>
          refine ⟨fun _ hf => hf ⟨d, rfl, h.1⟩, ?_⟩
          rintro r _ ⟨-, rfl⟩
          exact ih () h.2 fun _ _ => hQ _ _
      | release l =>
          refine ⟨fun _ hf => hf trivial, ?_⟩
          rintro r _ ⟨-, rfl⟩
          exact ih () h fun _ _ => hQ _ _

/-- Every request keeps to the rules and gives back its locks. -/
theorem LockRules.obeyedBy
    (hV : ∀ d i, V.admits d i = true → KeepsRules R d [] [] (V.serve d i)) :
    R.discipline.ObeyedBy V (fun _ st => st.2 = []) fun st => st.2 = [] where
  start := rfl
  serve d i st hi hst := by
    obtain ⟨d₀, held⟩ := st
    obtain rfl : held = [] := hst
    refine (hV d i hi).wp fun _ a => ⟨trivial, fun o => ?_⟩
    cases V.next i a o with
    | none => rfl
    | some d' => rfl

theorem standing_held (c : ι) (trace : List (ι × Observation (S.locking L) Data Input Result)) :
    (R.discipline.standing c trace).2 = heldBy c trace := by
  induction trace using List.reverseRecOn with
  | nil => rfl
  | append_singleton trace e ih =>
      obtain ⟨c', o⟩ := e
      by_cases hc : c = c'
      · subst hc
        rw [Discipline.standing_self, heldBy_self, ← ih]
        rfl
      · rw [Discipline.standing_other _ hc, heldBy_other hc, ih]

variable {K : Config (S.locking L) σ ι Data Input Result → Service.Label ι Input Outcome → Prop}
variable {s : σ} {cfg : Config (S.locking L) σ ι Data Input Result}

/-- A busy client stands at the request it serves. -/
theorem standing_busy
    (hrun : Service.Reachable V (M.locking L) K (Service.start s) cfg) :
    ∀ c d i p, cfg.clients c = .busy d i p → (R.discipline.standing c cfg.trace).1 = some d := by
  refine hrun.invariant (I := fun cfg => ∀ c d i p, cfg.clients c = .busy d i p →
    (R.discipline.standing c cfg.trace).1 = some d) (fun c d i p hc => by cases hc) ?_
  intro cfg l cfg' ih _ hstep c' d' i' p' hc'
  cases hstep with
  | @connect c hc =>
      by_cases hcc : c' = c
      · subst hcc
        simp at hc'
      · exact ih c' d' i' p' (by simpa [Function.update_of_ne hcc] using hc')
  | @receive c d i hc hi =>
      by_cases hcc : c' = c
      · subst hcc
        simp only [Function.update_self, Client.busy.injEq] at hc'
        rw [Discipline.standing_self, ← hc'.1]
        rfl
      · rw [Discipline.standing_other _ hcc]
        exact ih c' d' i' p' (by simpa [Function.update_of_ne hcc] using hc')
  | @perform c d i o next r s' hc hs =>
      by_cases hcc : c' = c
      · subst hcc
        simp only [Function.update_self, Client.busy.injEq] at hc'
        rw [Discipline.standing_self, ← hc'.1]
        exact ih c' d i _ hc
      · rw [Discipline.standing_other _ hcc]
        exact ih c' d' i' p' (by simpa [Function.update_of_ne hcc] using hc')
  | @finish c d i a o hc =>
      by_cases hcc : c' = c
      · subst hcc
        simp only [Function.update_self] at hc'
        cases hn : V.next i a o with
        | none => simp [Service.resting, hn] at hc'
        | some d => simp [Service.resting, hn] at hc'
      · rw [Discipline.standing_other _ hcc]
        exact ih c' d' i' p' (by simpa [Function.update_of_ne hcc] using hc')

/-- The locks exclude each other, and every client keeps to the rules. -/
structure LocksKept (R : LockRules S L Data) (V : Service (S.locking L) Data Input Result Outcome)
    (cfg : Config (S.locking L) σ ι Data Input Result) : Prop where
  excluding : Excluding cfg.trace
  keeps : ∀ c, R.discipline.Keeps V (fun _ st => st.2 = []) (fun st => st.2 = []) cfg c
  serving : ∀ c d i p, cfg.clients c = .busy d i p →
    (R.discipline.standing c cfg.trace).1 = some d

theorem locksKept_of_reachable
    (hV : ∀ d i, V.admits d i = true → KeepsRules R d [] [] (V.serve d i))
    (hK : ∀ cfg l, K cfg l → LocksFree .readers cfg l)
    (hrun : Service.Reachable V (M.locking L) K (Service.start s) cfg) : LocksKept R V cfg := by
  suffices h : Excluding cfg.trace ∧
      ∀ c, R.discipline.Keeps V (fun _ st => st.2 = []) (fun st => st.2 = []) cfg c from
    ⟨h.1, h.2, standing_busy hrun⟩
  refine (LockRules.obeyedBy hV).reachable (I := fun _ trace => Excluding trace) ?_ ?_ ?_ hrun
    ⟨fun c l h => absurd h List.not_mem_nil, fun c => rfl⟩
  · intro cfg c d i hexcluding _ _ _
    exact hexcluding.snoc fun e he => he
  · intro cfg c d i o next r s' hexcluding hc hk _ _
    refine ⟨trivial, ?_⟩
    cases o with
    | act o => exact hexcluding.snoc fun e he => he
    | acquire l mode => exact hexcluding.acquire (hK _ _ hk l mode (by rw [hc]; rfl))
    | release l => exact hexcluding.snoc fun e he => List.mem_of_mem_eraseP he
  · intro s trace c d i a o hexcluding _
    exact hexcluding.snoc fun e he => he

omit [DecidableEq ι] in
theorem nextOp_eq_some {k : Client S Data Input Result} {o : S.Op} :
    k.nextOp = some o ↔ ∃ d i next, k = .busy d i (.perform o next) := by
  constructor
  · intro h
    cases k with
    | busy d i p =>
        cases p with
        | pure a => cases h
        | perform o' next =>
            cases h
            exact ⟨d, i, next, rfl⟩
    | _ => cases h
  · rintro ⟨d, i, next, rfl⟩
    rfl

/-! ## Checking a run -/

/-- The lock that a client takes next. -/
def Client.nextLock (k : Client (S.locking L) Data Input Result) : Option (L × LockMode) :=
  match k.nextOp with
  | some (.acquire l mode) => some (l, mode)
  | _ => none

omit [DecidableEq L] [DecidableEq ι] in
theorem nextLock_eq_some {k : Client (S.locking L) Data Input Result} {l : L} {mode : LockMode} :
    k.nextLock = some (l, mode) ↔ k.nextOp = some (.acquire l mode) := by
  unfold Client.nextLock
  constructor
  · intro h
    split at h
    · next l' mode' hnext =>
        cases h
        exact hnext
    · cases h
  · intro h
    rw [h]

omit [DecidableEq L] [DecidableEq ι] in
theorem isBusy_of_nextLock {k : Client (S.locking L) Data Input Result} {l : L} {mode : LockMode}
    (h : k.nextLock = some (l, mode)) : k.isBusy = true := by
  obtain ⟨_, _, _, rfl⟩ := nextOp_eq_some.mp (nextLock_eq_some.mp h)
  rfl

/-- Whether a lock is to be had, as far as some clients are concerned. -/
def toBeHadAmong (policy : LockPolicy) (clients : List ι)
    (cfg : Config (S.locking L) σ ι Data Input Result) (l : L) : LockMode → Bool
  | .exclusive => clients.all fun c => (heldBy c cfg.trace).all fun e => e.1 ≠ l
  | .shared => (clients.all fun c => (l, .exclusive) ∉ heldBy c cfg.trace) &&
      (policy = .readers ||
        clients.all fun c => (cfg.clients c).nextLock ≠ some (l, .exclusive))

/-- Whether a step takes no lock that is not to be had, where only some clients have come. -/
def locksFreeAmong (policy : LockPolicy) (clients : List ι)
    (cfg : Config (S.locking L) σ ι Data Input Result) : Service.Label ι Input Outcome → Bool
  | .perform c =>
      match (cfg.clients c).nextLock with
      | some (l, mode) => (cfg.trace.all fun e => e.1 ∈ clients) &&
          toBeHadAmong policy clients cfg l mode
      | none => true
  | _ => true

theorem heldBy_eq_nil {c : ι} {trace : List (ι × Observation (S.locking L) Data Input Result)}
    (h : ∀ e ∈ trace, e.1 ≠ c) : heldBy c trace = [] := by
  have hnone : (trace.filter fun e => decide (e.1 = c)) = [] := by
    simpa [List.filter_eq_nil_iff] using h
  rw [heldBy, follow, hnone]
  rfl

/-- A busy client has been observed. -/
theorem observed_of_busy
    (hrun : Service.Reachable V (M.locking L) K (Service.start s) cfg) {c : ι}
    (hbusy : (cfg.clients c).isBusy = true) : ∃ e ∈ cfg.trace, e.1 = c := by
  by_contra hnone
  -- any rules will do
  let R : LockRules S L Data :=
    ⟨fun _ => 0, 1, fun _ => Nat.one_pos, fun _ _ => True, fun _ _ _ => False⟩
  have hinitial : R.discipline.standing c cfg.trace = (none, []) := by
    have hfilter : (cfg.trace.filter fun e => decide (e.1 = c)) = [] :=
      List.filter_eq_nil_iff.mpr fun e he heq => hnone ⟨e, he, of_decide_eq_true heq⟩
    rw [Discipline.standing, follow, hfilter]
    rfl
  cases hc : cfg.clients c with
  | busy d i p =>
      have hstanding : (R.discipline.standing c cfg.trace).1 = some d :=
        standing_busy hrun c d i p hc
      rw [hinitial] at hstanding
      cases hstanding
  | _ => simp [hc, Client.isBusy] at hbusy

/-- In a run the check is as good as looking at all clients. -/
theorem locksFree_of_among
    (hrun : Service.Reachable V (M.locking L) K (Service.start s) cfg) {policy : LockPolicy}
    {clients : List ι} {label : Service.Label ι Input Outcome}
    (h : locksFreeAmong policy clients cfg label = true) : LocksFree policy cfg label := by
  cases label with
  | perform c =>
      intro l mode hnext
      simp only [locksFreeAmong, nextLock_eq_some.mpr hnext, Bool.and_eq_true, List.all_eq_true,
        decide_eq_true_eq] at h
      obtain ⟨hclients, hfree⟩ := h
      have hnobody {c' : ι} (hc' : c' ∉ clients) : heldBy c' cfg.trace = [] :=
        heldBy_eq_nil fun e he heq => hc' (heq ▸ hclients e he)
      cases mode with
      | exclusive =>
          intro c' mode' hheld
          by_cases hc' : c' ∈ clients
          · simp only [toBeHadAmong, List.all_eq_true, decide_eq_true_eq] at hfree
            exact hfree c' hc' _ hheld rfl
          · rw [hnobody hc'] at hheld
            exact absurd hheld List.not_mem_nil
      | shared =>
          simp only [toBeHadAmong, Bool.and_eq_true, Bool.or_eq_true, List.all_eq_true,
            decide_eq_true_eq] at hfree
          refine ⟨fun c' hheld => ?_, fun hpolicy c' hawaits => ?_⟩
          · by_cases hc' : c' ∈ clients
            · exact hfree.1 c' hc' hheld
            · rw [hnobody hc'] at hheld
              exact absurd hheld List.not_mem_nil
          · obtain ⟨d, i, next, hbusy⟩ := nextOp_eq_some.mp hawaits
            obtain ⟨e, he, rfl⟩ := observed_of_busy hrun (c := c') (by rw [hbusy]; rfl)
            rcases hfree.2 with hreaders | hnone
            · rw [hpolicy] at hreaders
              cases hreaders
            · exact hnone e.1 (hclients e he) (nextLock_eq_some.mpr hawaits)
  | _ => trivial

theorem reachable_of_among {policy : LockPolicy} {clients : List ι}
    (hrun : Service.Reachable V (M.locking L)
      (fun cfg label => locksFreeAmong policy clients cfg label = true) (Service.start s) cfg) :
    Service.Reachable V (M.locking L) (LocksFree policy) (Service.start s) cfg := by
  induction hrun with
  | refl => exact .refl
  | tail hrun hs ih =>
      obtain ⟨label, hfree, hs⟩ := hs
      exact ih.tail ⟨label, locksFree_of_among hrun hfree, hs⟩

/-! ## Nobody waits forever -/

/-- A client is in the middle of a request and can go on: it makes its next call or takes a step
of a lock, or ends the request, or its next call throws. -/
def GoesOn (V : Service (S.locking L) Data Input Result Outcome) (M : Machine S σ ε)
    (policy : LockPolicy) (cfg : Config (S.locking L) σ ι Data Input Result) (c : ι) : Prop :=
  (∃ l cfg', (l = .perform c ∨ ∃ o, l = .finish c o) ∧ LocksFree policy cfg l ∧
      Service.Step V (M.locking L) cfg l cfg') ∨
    ∃ o e, (cfg.clients c).nextOp = some (.act o) ∧ M.Fault o cfg.shared e

theorem GoesOn.isBusy {policy : LockPolicy} {c : ι} (h : GoesOn V M policy cfg c) :
    (cfg.clients c).isBusy = true := by
  rcases h with ⟨l, cfg', rfl | ⟨o, rfl⟩, -, hs⟩ | ⟨o, e, hnext, -⟩
  · cases hs with
    | perform hc hs =>
        rw [hc]
        rfl
  · cases hs with
    | finish hc =>
        rw [hc]
        rfl
  · obtain ⟨_, _, _, hc⟩ := nextOp_eq_some.mp hnext
    rw [hc]
    rfl

/-- Who goes on with a lock finds it to be had. -/
theorem GoesOn.toBeHad {policy : LockPolicy} {c : ι} {l : L} {mode : LockMode}
    (h : GoesOn V M policy cfg c) (hnext : (cfg.clients c).nextOp = some (.acquire l mode)) :
    ToBeHad policy cfg l mode := by
  rcases h with ⟨label, cfg', rfl | ⟨o, rfl⟩, hfree, hs⟩ | ⟨o, e, hact, -⟩
  · exact hfree l mode hnext
  · cases hs with
    | finish hc =>
        rw [hc] at hnext
        cases hnext
  · rw [hact] at hnext
    cases hnext

/-- A client shares a lock and waits to share it once more, behind one who waits for it alone. -/
def Reentering (R : LockRules S L Data) (cfg : Config (S.locking L) σ ι Data Input Result) : Prop :=
  ∃ c d i p c' l, cfg.clients c = .busy d i p ∧ R.reenters d l ∧
    (l, .shared) ∈ heldBy c cfg.trace ∧ (cfg.clients c).nextOp = some (.acquire l .shared) ∧
    Awaits cfg c' l

namespace LocksKept

variable (h : LocksKept R V cfg) {policy : LockPolicy} {c : ι} {l : L} {mode : LockMode}

include h

/-- Only a busy client holds a lock. -/
theorem busy_of_mem {e : L × LockMode} (he : e ∈ heldBy c cfg.trace) :
    (cfg.clients c).isBusy = true := by
  have hkeep := h.keeps c
  unfold Discipline.Keeps at hkeep
  rw [← standing_held (R := R)] at he
  cases hc : cfg.clients c with
  | busy => rfl
  | absent =>
      rw [hc] at hkeep
      rw [(show _ = _ from hkeep)] at he
      exact absurd he List.not_mem_nil
  | idle d =>
      rw [hc] at hkeep
      rw [(show _ = _ from hkeep)] at he
      exact absurd he List.not_mem_nil
  | ended =>
      rw [hc] at hkeep
      rw [(show _ = _ from hkeep)] at he
      exact absurd he List.not_mem_nil

theorem mayTake {d : Data} {i : Input} {next : Unit → Program (S.locking L) Result}
    (hc : cfg.clients c = .busy d i (.perform (.acquire l mode) next)) :
    R.MayTake d (heldBy c cfg.trace) l mode := by
  obtain ⟨d', hd', hmay⟩ := (h.keeps c).allowed hc
  rw [h.serving c d i _ hc] at hd'
  cases hd'
  rwa [standing_held] at hmay

/-- The call that a client makes next is made under the locks it needs. -/
theorem mayAct {o : S.Op} (hnext : (cfg.clients c).nextOp = some (.act o)) :
    R.MayAct (heldBy c cfg.trace) o := by
  obtain ⟨d, i, next, hc⟩ := nextOp_eq_some.mp hnext
  have hmay : R.MayAct (R.discipline.standing c cfg.trace).2 o := (h.keeps c).allowed hc
  rwa [standing_held] at hmay

/-- No two clients are about to make calls of which one needs a lock alone that the other needs
as well. -/
theorem apart {c' : ι} {o o' : S.Op} (hnext : (cfg.clients c).nextOp = some (.act o))
    (hnext' : (cfg.clients c').nextOp = some (.act o')) (ho : R.needs o l .exclusive)
    (ho' : R.needs o' l mode) : c' = c := by
  have hheld : (l, .exclusive) ∈ heldBy c cfg.trace := (h.mayAct hnext l _ ho).elim id id
  rcases h.mayAct hnext' l mode ho' with hheld' | hheld'
  · exact (h.excluding c l hheld c' mode hheld').1
  · exact (h.excluding c l hheld c' .exclusive hheld').1

omit h in
/-- A busy client that cannot go on waits for a lock. -/
theorem waits [Nonempty Outcome] (htotal : ∀ o s, (∃ r s', M.Step o s r s') ∨ ∃ e, M.Fault o s e)
    (hbusy : (cfg.clients c).isBusy = true) (hstuck : ¬ GoesOn V M policy cfg c) :
    ∃ d i l mode next, cfg.clients c = .busy d i (.perform (.acquire l mode) next) ∧
      ¬ ToBeHad policy cfg l mode := by
  cases hc : cfg.clients c with
  | busy d i p =>
      cases p with
      | pure a =>
          obtain ⟨o⟩ := ‹Nonempty Outcome›
          exact absurd (.inl ⟨_, _, .inr ⟨o, rfl⟩, trivial, .finish hc⟩) hstuck
      | perform o next =>
          cases o with
          | act o =>
              rcases htotal o cfg.shared with ⟨r, s', hs⟩ | ⟨e, he⟩
              · have hstep : (M.locking L).Step (.act o) cfg.shared r s' := hs
                refine absurd (.inl ⟨_, _, .inl rfl, ?_, .perform hc hstep⟩) hstuck
                intro l mode hnext
                rw [hc] at hnext
                cases hnext
              · exact absurd (.inr ⟨o, e, by rw [hc]; rfl, he⟩) hstuck
          | release l =>
              refine absurd (.inl ⟨_, _, .inl rfl, ?_, .perform (r := ()) hc rfl⟩) hstuck
              intro l mode hnext
              rw [hc] at hnext
              cases hnext
          | acquire l mode =>
              refine ⟨d, i, l, mode, next, rfl, fun hfree => hstuck ?_⟩
              refine .inl ⟨_, _, .inl rfl, ?_, .perform (r := ()) hc rfl⟩
              intro l' mode' hnext
              rw [hc] at hnext
              cases hnext
              exact hfree
  | _ => simp [hc, Client.isBusy] at hbusy

/-- Who holds a lock and cannot go on waits for one that ranks behind it, if it does not share
a lock once more. By induction on the ranks, the last one cannot wait. -/
theorem reentering_of_waiting [Nonempty Outcome]
    (htotal : ∀ o s, (∃ r s', M.Step o s r s') ∨ ∃ e, M.Fault o s e)
    (hstuck : ∀ c, ¬ GoesOn V M policy cfg c) (n : ℕ) {d : Data} {i : Input}
    {next : Unit → Program (S.locking L) Result}
    (hc : cfg.clients c = .busy d i (.perform (.acquire l mode) next))
    (hrank : R.bound ≤ R.rank l + n) : policy = .writers ∧ Reentering R cfg := by
  induction n generalizing c l mode d i next with
  | zero => exact absurd (R.rank_lt l) (Nat.not_lt.mpr hrank)
  | succ n ih =>
      -- a client that holds the lock waits as well
      have hholder (c₁ : ι) (mode₁ : LockMode) (hheld : (l, mode₁) ∈ heldBy c₁ cfg.trace) :
          policy = .writers ∧ Reentering R cfg := by
        obtain ⟨d₁, i₁, l₁, m₁, next₁, hc₁, hwaits⟩ :=
          waits htotal (h.busy_of_mem hheld) (hstuck c₁)
        rcases h.mayTake hc₁ with hbehind | ⟨rfl, hshared, hreenters⟩
        · have hlt : R.rank l < R.rank l₁ := hbehind _ hheld
          exact ih hc₁ (by omega)
        · have hnobody : ∀ c₂, (l₁, .exclusive) ∉ heldBy c₂ cfg.trace := by
            intro c₂ hexclusive
            cases (h.excluding c₂ l₁ hexclusive c₁ _ hshared).2
          have hwriter : ¬ (policy = .writers → ∀ c₂, ¬ Awaits cfg c₂ l₁) :=
            fun hnone => hwaits ⟨hnobody, hnone⟩
          obtain ⟨hpolicy, hsome⟩ := Classical.not_imp.mp hwriter
          obtain ⟨c₂, hc₂⟩ := Classical.not_forall_not.mp hsome
          exact ⟨hpolicy, c₁, d₁, i₁, _, c₂, l₁, hc₁, hreenters, hshared, by rw [hc₁]; rfl, hc₂⟩
      have hbusy : (cfg.clients c).isBusy = true := by rw [hc]; rfl
      obtain ⟨d', i', l', mode', next', hc', hwaits⟩ := waits htotal hbusy (hstuck c)
      rw [hc] at hc'
      cases hc'
      -- who waits for a lock alone waits for somebody that holds it
      have hexclusive (c₁ : ι) (hawaits : Awaits cfg c₁ l) :
          policy = .writers ∧ Reentering R cfg := by
        obtain ⟨d₁, i₁, next₁, hc₁⟩ := nextOp_eq_some.mp hawaits
        have hbusy₁ : (cfg.clients c₁).isBusy = true := by rw [hc₁]; rfl
        obtain ⟨_, _, l₁, m₁, _, hc₁', hwaits₁⟩ := waits htotal hbusy₁ (hstuck c₁)
        rw [hc₁] at hc₁'
        cases hc₁'
        simp only [ToBeHad, Classical.not_forall, not_not] at hwaits₁
        obtain ⟨c₂, mode₂, hheld⟩ := hwaits₁
        exact hholder c₂ mode₂ hheld
      cases mode with
      | exclusive => exact hexclusive c (by rw [Awaits, hc]; rfl)
      | shared =>
          by_cases hheld : ∃ c₁, (l, .exclusive) ∈ heldBy c₁ cfg.trace
          · obtain ⟨c₁, hheld⟩ := hheld
            exact hholder c₁ _ hheld
          · have hwriter : ¬ (policy = .writers → ∀ c₁, ¬ Awaits cfg c₁ l) :=
              fun hnone => hwaits ⟨not_exists.mp hheld, hnone⟩
            obtain ⟨-, hsome⟩ := Classical.not_imp.mp hwriter
            obtain ⟨c₁, hc₁⟩ := Classical.not_forall_not.mp hsome
            exact hexclusive c₁ hc₁

/-- If a request is in progress and no client can go on, then the policy prefers those who wait
for a lock alone, and some client waits to share a lock that it shares already. -/
theorem reentering_of_stuck [Nonempty Outcome]
    (htotal : ∀ o s, (∃ r s', M.Step o s r s') ∨ ∃ e, M.Fault o s e)
    (hbusy : (cfg.clients c).isBusy = true) (hstuck : ∀ c, ¬ GoesOn V M policy cfg c) :
    policy = .writers ∧ Reentering R cfg := by
  obtain ⟨d, i, l, mode, next, hc, -⟩ := waits htotal hbusy (hstuck c)
  exact h.reentering_of_waiting htotal hstuck R.bound hc (Nat.le_add_left _ _)

end LocksKept

end Runs

/-! ## Without the locks -/

section Erasure

variable {S : Signature} {L σ ε ι Data Input Result Outcome : Type}

def Client.erase : Client (S.locking L) Data Input Result → Client S Data Input Result
  | .absent => .absent
  | .idle d => .idle d
  | .busy d i p => .busy d i p.erase
  | .ended => .ended

def Observation.erase :
    Observation (S.locking L) Data Input Result → Option (Observation S Data Input Result)
  | .received d i => some (.received d i)
  | .called ⟨.act o, r⟩ => some (.called ⟨o, r⟩)
  | .called _ => none
  | .finished d i a d' => some (.finished d i a d')

def Config.erase (cfg : Config (S.locking L) σ ι Data Input Result) :
    Config S σ ι Data Input Result where
  shared := cfg.shared
  clients c := (cfg.clients c).erase
  trace := cfg.trace.filterMap fun e => e.2.erase.map (e.1, ·)

def Service.erase (V : Service (S.locking L) Data Input Result Outcome) :
    Service S Data Input Result Outcome where
  initial := V.initial
  admits := V.admits
  serve d i := (V.serve d i).erase
  next := V.next

variable [DecidableEq ι] {V : Service (S.locking L) Data Input Result Outcome} {M : Machine S σ ε}

theorem Client.erase_update (clients : ι → Client (S.locking L) Data Input Result) (c : ι)
    (k : Client (S.locking L) Data Input Result) :
    (fun c' => (Function.update clients c k c').erase) =
      Function.update (fun c' => (clients c').erase) c k.erase :=
  funext fun c' => Function.apply_update (fun _ => Client.erase) clients c k c'

theorem Client.erase_resting (d : Option Data) :
    (Service.resting d : Client (S.locking L) Data Input Result).erase = Service.resting d := by
  cases d <;> rfl

theorem Config.erase_snoc (cfg : Config (S.locking L) σ ι Data Input Result) (s' : σ) (c : ι)
    (k : Client (S.locking L) Data Input Result)
    (o : Observation (S.locking L) Data Input Result) :
    Config.erase ⟨s', Function.update cfg.clients c k, cfg.trace ++ [(c, o)]⟩ =
      ⟨s', Function.update cfg.erase.clients c k.erase,
        cfg.erase.trace ++ (o.erase.map (c, ·)).toList⟩ := by
  simp only [Config.erase, Client.erase_update, List.filterMap_append]
  cases ho : o.erase <;> simp [ho]

/-- A step with locks is the same step without them, or a step of a lock only. -/
theorem Service.Step.erase {cfg cfg' : Config (S.locking L) σ ι Data Input Result}
    {l : Service.Label ι Input Outcome} (h : Service.Step V (M.locking L) cfg l cfg') :
    cfg'.erase = cfg.erase ∨ Service.Step V.erase M cfg.erase l cfg'.erase := by
  have hclient {c : ι} {k : Client (S.locking L) Data Input Result} (hc : cfg.clients c = k) :
      cfg.erase.clients c = k.erase := congrArg Client.erase hc
  cases h with
  | @connect c hc =>
      right
      have hupdate : Config.erase
          { cfg with clients := Function.update cfg.clients c (.idle V.initial) } =
          { cfg.erase with clients := Function.update cfg.erase.clients c (.idle V.initial) } := by
        simp only [Config.erase, Client.erase_update]
        rfl
      rw [hupdate]
      exact .connect (hclient hc)
  | @receive c d i hc hi =>
      right
      rw [Config.erase_snoc]
      exact .receive (hclient hc) hi
  | @perform c d i o next r s' hc hs =>
      rw [Config.erase_snoc]
      cases o with
      | act o =>
          right
          exact .perform (hclient hc) hs
      | acquire l mode =>
          left
          have hsame : cfg.erase.clients c = (Client.busy d i (next r)).erase :=
            (hclient hc).trans rfl
          rw [← hsame, Function.update_eq_self, (show s' = cfg.shared from hs)]
          exact congrArg (Config.mk _ _) (List.append_nil _)
      | release l =>
          left
          have hsame : cfg.erase.clients c = (Client.busy d i (next r)).erase :=
            (hclient hc).trans rfl
          rw [← hsame, Function.update_eq_self, (show s' = cfg.shared from hs)]
          exact congrArg (Config.mk _ _) (List.append_nil _)
  | @finish c d i a o hc =>
      right
      rw [Config.erase_snoc, Client.erase_resting]
      exact .finish (hclient hc)

/-- A run with locks is a run without them, as far as anything else is concerned. -/
theorem Service.Reachable.erase
    {K : Config (S.locking L) σ ι Data Input Result → Service.Label ι Input Outcome → Prop}
    {cfg cfg' : Config (S.locking L) σ ι Data Input Result}
    (h : Service.Reachable V (M.locking L) K cfg cfg') :
    Service.Reachable V.erase M (fun _ _ => True) cfg.erase cfg'.erase := by
  induction h with
  | refl => exact .refl
  | tail _ hs ih =>
      obtain ⟨l, -, hs⟩ := hs
      rcases hs.erase with hsame | hstep
      · rwa [hsame]
      · exact ih.tail ⟨l, trivial, hstep⟩

end Erasure

end Interaction
