import TriviaServer.Interaction.History
import TriviaServer.Interaction.Service

/-! # Disciplines: what each client keeps to while the others interfere

A discipline follows one client through its own observations and says which operations it may
perform and which answers it may count on. A service obeys it if every request does, seen
alone. In an interleaved run the clients then keep to it together, if a global invariant
justifies the answers they count on. -/

namespace Interaction

/-- The standing of one client: how its observations change it, the operations it allows, the
answers it is entitled to, and the results a request may end with. -/
structure Discipline (S : Signature) (Data Input Result τ : Type) where
  initial : τ
  observe : τ → Observation S Data Input Result → τ
  allowed : τ → S.Op → Prop
  assumed : τ → Event S → Prop
  mayFinish : τ → Data → Input → Result → Prop

namespace Discipline

variable {S : Signature} {σ ε ι τ Data Input Result Outcome α : Type} [DecidableEq ι]
variable (D : Discipline S Data Input Result τ)

/-- A client's standing after everything observed of it. -/
def standing (c : ι) (trace : List (ι × Observation S Data Input Result)) : τ :=
  follow D.observe D.initial c trace

@[simp] theorem standing_nil (c : ι) :
    D.standing c ([] : List (ι × Observation S Data Input Result)) = D.initial := rfl

@[simp] theorem standing_self (c : ι) (trace : List (ι × Observation S Data Input Result))
    (o : Observation S Data Input Result) :
    D.standing c (trace ++ [(c, o)]) = D.observe (D.standing c trace) o :=
  follow_self ..

theorem standing_other {c c' : ι} (h : c' ≠ c)
    (trace : List (ι × Observation S Data Input Result)) (o : Observation S Data Input Result) :
    D.standing c' (trace ++ [(c, o)]) = D.standing c' trace :=
  follow_other _ _ h trace o

/-- An observation changes the standing of its own client only. -/
theorem standing_snoc (c : ι) (trace : List (ι × Observation S Data Input Result))
    (o : Observation S Data Input Result) :
    (fun c' => D.standing c' (trace ++ [(c, o)])) =
      Function.update (fun c' => D.standing c' trace) c (D.observe (D.standing c trace) o) :=
  follow_snoc _ _ c trace o

/-- All that one client sees: its own standing and the answers it is entitled to. -/
def machine : Machine S τ Unit where
  Step o st r st' := D.assumed st ⟨o, r⟩ ∧ st' = D.observe st (.called ⟨o, r⟩)
  Fault o st _ := ¬ D.allowed st o

/-- What a request ends with: a standing that fits the data the client keeps. -/
def Rests (rest : Data → τ → Prop) (final : τ → Prop) : Option Data → τ → Prop
  | some d, st => rest d st
  | none, st => final st

/-- Behind a request: its result is admissible, and the standing fits the client's next data. -/
def Post (V : Service S Data Input Result Outcome) (rest : Data → τ → Prop) (final : τ → Prop)
    (d : Data) (i : Input) (a : Result) (st : τ) : Prop :=
  D.mayFinish st d i a ∧
    ∀ o, Rests rest final (V.next i a o) (D.observe st (.finished d i a (V.next i a o)))

/-- Every request keeps to the discipline, from every standing that fits the client's data. -/
structure ObeyedBy (V : Service S Data Input Result Outcome) (rest : Data → τ → Prop)
    (final : τ → Prop) : Prop where
  start : rest V.initial D.initial
  serve : ∀ d i st, V.admits d i = true → rest d st →
    wp D.machine (fun _ => False) (V.serve d i) (fun _ a st' => D.Post V rest final d i a st')
      (D.observe st (.received d i))

section Rules

variable {D} {E : Unit → Prop}

theorem wp_call {o : S.Op} {st : τ} {Q : List (Event S) → S.Answer o → τ → Prop}
    (ho : D.allowed st o)
    (h : ∀ r, D.assumed st ⟨o, r⟩ → Q [⟨o, r⟩] r (D.observe st (.called ⟨o, r⟩))) :
    wp D.machine E (Program.call o) Q st := by
  refine (Interaction.wp_call o Q st).mpr ⟨fun _ hf => absurd ho hf, ?_⟩
  rintro r _ ⟨hr, rfl⟩
  exact h r hr

/-- An operation that is always allowed and never changes the standing. -/
def Neutral (D : Discipline S Data Input Result τ) (o : S.Op) : Prop :=
  ∀ st, D.allowed st o ∧ ∀ r, D.observe st (.called ⟨o, r⟩) = st

theorem wp_neutral {p : Program S α} {ψ : α → Prop} (hp : p.OnlyThen D.Neutral ψ) {st : τ}
    {Q : List (Event S) → α → τ → Prop} (h : ∀ t a, ψ a → Q t a st) : wp D.machine E p Q st :=
  hp.wp (M := D.machine) (fun _ _ r _ ho hs => hs.2.trans ((ho _).2 r))
    (fun _ st _ ho hf => absurd (ho st).1 hf) h

/-- An operation that is allowed from a standing and does not change it. -/
def NeutralAt (D : Discipline S Data Input Result τ) (st : τ) (o : S.Op) : Prop :=
  D.allowed st o ∧ ∀ r, D.observe st (.called ⟨o, r⟩) = st

theorem wp_neutralAt_then {p : Program S α} {ψ : α → Prop} {st : τ}
    (hp : p.OnlyThen (D.NeutralAt st) ψ) {Q : List (Event S) → α → τ → Prop}
    (h : ∀ t a, ψ a → Q t a st) : wp D.machine E p Q st := by
  induction p generalizing Q with
  | pure a => exact h [] a hp
  | perform o next ih =>
      refine ⟨fun _ hf => absurd hp.1.1 hf, ?_⟩
      rintro r _ ⟨-, rfl⟩
      rw [hp.1.2 r]
      exact ih r (hp.2 r) fun _ _ => h _ _

theorem wp_neutralAt {p : Program S α} {st : τ} (hp : p.Only (D.NeutralAt st))
    {Q : List (Event S) → α → τ → Prop} (h : ∀ t a, Q t a st) : wp D.machine E p Q st :=
  wp_neutralAt_then hp.then_true fun t a _ => h t a

end Rules

/-- The standings that fit what a client is doing. -/
def Fits (V : Service S Data Input Result Outcome) (rest : Data → τ → Prop) (final : τ → Prop) :
    Client S Data Input Result → τ → Prop
  | .absent, st => st = D.initial
  | .idle d, st => rest d st
  | .busy d i p, st => wp D.machine (fun _ => False) p
      (fun _ a st' => D.Post V rest final d i a st') st
  | .ended, st => final st

/-- A client of a configuration keeps to the discipline. -/
def Keeps (V : Service S Data Input Result Outcome) (rest : Data → τ → Prop) (final : τ → Prop)
    (cfg : Config S σ ι Data Input Result) (c : ι) : Prop :=
  D.Fits V rest final (cfg.clients c) (D.standing c cfg.trace)

variable {D} {V : Service S Data Input Result Outcome} {M : Machine S σ ε}
variable {rest : Data → τ → Prop} {final : τ → Prop}

theorem fits_resting {n : Option Data} {st : τ} (h : Rests rest final n st) :
    D.Fits V rest final (Service.resting n) st := by
  cases n with
  | none => exact h
  | some d => exact h

/-- What a client performs next is allowed. -/
theorem Keeps.allowed {cfg : Config S σ ι Data Input Result} {c : ι} {d : Data} {i : Input}
    {o : S.Op} {next : S.Answer o → Program S Result} (h : D.Keeps V rest final cfg c)
    (hc : cfg.clients c = .busy d i (.perform o next)) : D.allowed (D.standing c cfg.trace) o := by
  unfold Keeps at h
  rw [hc] at h
  exact Classical.byContradiction fun hnot => h.1 () hnot

/-- Another client's observation does not matter to a client. -/
theorem Keeps.other {cfg : Config S σ ι Data Input Result} {c c' : ι} (hc : c' ≠ c)
    (h : D.Keeps V rest final cfg c') {s' : σ} {k : Client S Data Input Result}
    {o : Observation S Data Input Result} :
    D.Keeps V rest final
      ⟨s', Function.update cfg.clients c k, cfg.trace ++ [(c, o)]⟩ c' := by
  unfold Keeps at h ⊢
  simpa only [Function.update_of_ne hc, D.standing_other hc] using h

/-- In a run all clients keep to an obeyed discipline, together with any invariant that the
allowed operations keep and that justifies the assumed answers. -/
theorem ObeyedBy.reachable (hD : D.ObeyedBy V rest final)
    {K : Config S σ ι Data Input Result → Service.Label ι Input Outcome → Prop}
    {I : σ → List (ι × Observation S Data Input Result) → Prop}
    (hreceived : ∀ (cfg : Config S σ ι Data Input Result) c d i, I cfg.shared cfg.trace →
      cfg.clients c = .idle d → K cfg (.receive c i) → rest d (D.standing c cfg.trace) →
      I cfg.shared (cfg.trace ++ [(c, .received d i)]))
    (hcalled : ∀ (cfg : Config S σ ι Data Input Result) c d i o next r s',
      I cfg.shared cfg.trace → cfg.clients c = .busy d i (.perform o next) →
      K cfg (.perform c) → D.allowed (D.standing c cfg.trace) o → M.Step o cfg.shared r s' →
      D.assumed (D.standing c cfg.trace) ⟨o, r⟩ ∧ I s' (cfg.trace ++ [(c, .called ⟨o, r⟩)]))
    (hfinished : ∀ s tr c d i a o, I s tr → D.Post V rest final d i a (D.standing c tr) →
      I s (tr ++ [(c, .finished d i a (V.next i a o))]))
    {cfg cfg' : Config S σ ι Data Input Result} (hrun : Service.Reachable V M K cfg cfg')
    (h₀ : I cfg.shared cfg.trace ∧ ∀ c, D.Keeps V rest final cfg c) :
    I cfg'.shared cfg'.trace ∧ ∀ c, D.Keeps V rest final cfg' c := by
  refine hrun.invariant (I := fun cfg => I cfg.shared cfg.trace ∧
    ∀ c, D.Keeps V rest final cfg c) h₀ ?_
  rintro cfg l cfg' ⟨hinv, hkeeps⟩ hK hstep
  cases hstep with
  | @connect c hc =>
      refine ⟨hinv, fun c' => ?_⟩
      have hkeep := hkeeps c'
      unfold Keeps at hkeep ⊢
      by_cases hcc : c' = c
      · subst hcc
        rw [hc] at hkeep
        simpa only [Function.update_self, Fits, (show _ = _ from hkeep)] using hD.start
      · simpa only [Function.update_of_ne hcc] using hkeep
  | @receive c d i hc hi =>
      have hrest := hkeeps c
      unfold Keeps at hrest
      rw [hc] at hrest
      refine ⟨hreceived cfg c d i hinv hc hK hrest, fun c' => ?_⟩
      by_cases hcc : c' = c
      · subst hcc
        simp only [Keeps, Function.update_self, standing_self]
        exact hD.serve d i _ hi hrest
      · exact (hkeeps c').other hcc
  | @perform c d i o next r s' hc hs =>
      have hwp := hkeeps c
      unfold Keeps at hwp
      rw [hc] at hwp
      have hallowed := (hkeeps c).allowed hc
      obtain ⟨hassumed, hinv'⟩ := hcalled cfg c d i o next r s' hinv hc hK hallowed hs
      refine ⟨hinv', fun c' => ?_⟩
      by_cases hcc : c' = c
      · subst hcc
        simp only [Keeps, Function.update_self, standing_self]
        exact hwp.2 r _ ⟨hassumed, rfl⟩
      · exact (hkeeps c').other hcc
  | @finish c d i a o hc =>
      have hpost := hkeeps c
      unfold Keeps at hpost
      rw [hc] at hpost
      refine ⟨hfinished _ _ _ _ _ _ _ hinv hpost, fun c' => ?_⟩
      by_cases hcc : c' = c
      · subst hcc
        simp only [Keeps, Function.update_self, standing_self]
        exact fits_resting (hpost.2 o)
      · exact (hkeeps c').other hcc

end Discipline

end Interaction
