import Mathlib.Tactic.SplitIfs
import TriviaServer.Interaction.Service

/-! # Replaying a run

Over an interpreter a run is determined by what the clients send and by the outcomes that the
environment chooses. A replay computes it, and fails where a step is not enabled. -/

namespace Interaction

namespace Service

variable {S : Signature} {σ χ ε ι Data Input Result Outcome : Type} [DecidableEq ι]

/-- One step of a client, with the outcomes of its calls. -/
inductive Play (ι Input Outcome χ : Type) where
  | connect (c : ι)
  | receive (c : ι) (i : Input)
  | perform (c : ι) (outcome : χ)
  | finish (c : ι) (o : Outcome)
  | request (c : ι) (i : Input) (o : Outcome) (outcomes : List χ)

variable (V : Service S Data Input Result Outcome) (I : Interpreter S σ χ ε)
variable (admits : S.Op → χ → σ → Bool)

def replayOne (play : Play ι Input Outcome χ) (cfg : Config S σ ι Data Input Result) :
    Option (Config S σ ι Data Input Result) :=
  match play with
  | .connect c =>
      match cfg.clients c with
      | .absent => some
          { cfg with clients := Function.update cfg.clients c (.idle V.initial) }
      | _ => none
  | .receive c i =>
      match cfg.clients c with
      | .idle d =>
          if V.admits d i then some
            { cfg with
              clients := Function.update cfg.clients c (.busy d i (V.serve d i))
              trace := cfg.trace ++ [(c, .received d i)] }
          else none
      | _ => none
  | .perform c outcome =>
      match cfg.clients c with
      | .busy d i (.perform o next) =>
          if admits o outcome cfg.shared then
            match I.exec o outcome cfg.shared with
            | .error _ => none
            | .ok (r, s') => some
                { shared := s'
                  clients := Function.update cfg.clients c (.busy d i (next r))
                  trace := cfg.trace ++ [(c, .called ⟨o, r⟩)] }
          else none
      | _ => none
  | .finish c o =>
      match cfg.clients c with
      | .busy d i (.pure a) => some
          { cfg with
            clients := Function.update cfg.clients c (resting (V.next i a o))
            trace := cfg.trace ++ [(c, .finished d i a (V.next i a o))] }
      | _ => none
  | .request c i o outcomes =>
      match cfg.clients c with
      | .idle d =>
          if V.admits d i then
            match I.run admits (V.serve d i) outcomes cfg.shared with
            | none => none
            | some (t, a, s') => some
                { shared := s'
                  clients := Function.update cfg.clients c (resting (V.next i a o))
                  trace := cfg.trace ++ ((c, .received d i) :: t.map fun e => (c, .called e)) ++
                    [(c, .finished d i a (V.next i a o))] }
          else none
      | _ => none

/-- The step of an interleaved run that a play is. -/
def Play.label : Play ι Input Outcome χ → Option (Label ι Input Outcome)
  | .connect c => some (.connect c)
  | .receive c i => some (.receive c i)
  | .perform c _ => some (.perform c)
  | .finish c o => some (.finish c o)
  | .request .. => none

/-- The step of an atomic run that a play is in a configuration. -/
def Play.atomicLabel (play : Play ι Input Outcome χ) (cfg : Config S σ ι Data Input Result) :
    Option (AtomicLabel S ι Input Outcome) :=
  match play with
  | .connect c => some (.connect c)
  | .request c i o outcomes =>
      match cfg.clients c with
      | .idle d => (I.run admits (V.serve d i) outcomes cfg.shared).map fun out =>
          .request c i o out.1
      | _ => none
  | _ => none

/-- A replay whose steps all pass a check. -/
def replayIf {L : Type}
    (label : Play ι Input Outcome χ → Config S σ ι Data Input Result → Option L)
    (check : Config S σ ι Data Input Result → L → Bool) :
    List (Play ι Input Outcome χ) → Config S σ ι Data Input Result →
      Option (Config S σ ι Data Input Result)
  | [], cfg => some cfg
  | play :: rest, cfg =>
      if (label play cfg).any (check cfg) then
        match replayOne V I admits play cfg with
        | none => none
        | some cfg' => replayIf label check rest cfg'
      else none

variable {V I admits}

theorem atomicStep_of_replayOne {play : Play ι Input Outcome χ}
    {cfg cfg' : Config S σ ι Data Input Result} {l : AtomicLabel S ι Input Outcome}
    (hl : play.atomicLabel V I admits cfg = some l)
    (h : replayOne V I admits play cfg = some cfg') :
    AtomicStep V (I.machine admits) cfg l cfg' := by
  cases play with
  | connect c =>
      cases hl
      simp only [replayOne] at h
      split at h <;> cases h
      next hc => exact .connect hc
  | request c i o outcomes =>
      simp only [replayOne] at h
      simp only [Play.atomicLabel] at hl
      split at h
      · next d hc =>
          simp only [hc] at hl
          by_cases hi : V.admits d i = true
          · simp only [hi, if_true] at h
            split at h <;> cases h
            next hrun =>
              simp only [hrun, Option.map_some, Option.some.injEq] at hl
              exact hl ▸ .request hc hi (Interpreter.exec_of_run hrun)
          · simp [hi] at h
      · cases h
  | receive | perform | finish => cases hl

theorem step_of_replayOne {play : Play ι Input Outcome χ}
    {cfg cfg' : Config S σ ι Data Input Result} {l : Label ι Input Outcome}
    (hl : play.label = some l) (h : replayOne V I admits play cfg = some cfg') :
    Step V (I.machine admits) cfg l cfg' := by
  cases play with
  | connect c =>
      cases hl
      simp only [replayOne] at h
      split at h <;> cases h
      next hc => exact .connect hc
  | request => cases hl
  | receive c i =>
      cases hl
      simp only [replayOne] at h
      split at h
      · next d hc =>
          by_cases hi : V.admits d i = true
          · simp only [hi, if_true, Option.some.injEq] at h
            exact h ▸ .receive hc hi
          · simp [hi] at h
      · cases h
  | perform c outcome =>
      cases hl
      simp only [replayOne] at h
      split at h
      · next d i o next hc =>
          by_cases ho : admits o outcome cfg.shared = true
          · simp only [ho, if_true] at h
            split at h <;> cases h
            next hx => exact .perform hc ⟨outcome, ho, hx⟩
          · simp [ho] at h
      · cases h
  | finish c o =>
      cases hl
      simp only [replayOne] at h
      split at h <;> cases h
      next hc => exact .finish hc

/-- A checked replay is a run of any relation whose steps its plays are. -/
theorem reflTransGen_of_replayIf {L : Type}
    {label : Play ι Input Outcome χ → Config S σ ι Data Input Result → Option L}
    {check : Config S σ ι Data Input Result → L → Bool}
    {K : Config S σ ι Data Input Result → L → Prop}
    {R : Config S σ ι Data Input Result → L → Config S σ ι Data Input Result → Prop}
    (hR : ∀ play cfg cfg' l, label play cfg = some l →
      replayOne V I admits play cfg = some cfg' → R cfg l cfg')
    (hK : ∀ cfg l, check cfg l = true → K cfg l) {plays : List (Play ι Input Outcome χ)}
    {cfg cfg' : Config S σ ι Data Input Result}
    (h : replayIf V I admits label check plays cfg = some cfg') :
    Relation.ReflTransGen (fun cfg cfg' => ∃ l, K cfg l ∧ R cfg l cfg') cfg cfg' := by
  induction plays generalizing cfg with
  | nil =>
      cases h
      exact .refl
  | cons play rest ih =>
      simp only [replayIf] at h
      split_ifs at h with hcheck
      split at h
      · cases h
      · next hone =>
          obtain ⟨l, hl, hcheck⟩ := (Option.any_eq_true _ _).mp hcheck
          exact .head ⟨l, hK _ l hcheck, hR _ _ _ l hl hone⟩ (ih h)

variable {plays : List (Play ι Input Outcome χ)} {cfg cfg' : Config S σ ι Data Input Result}

theorem reachable_of_replayIf
    {check : Config S σ ι Data Input Result → Label ι Input Outcome → Bool}
    {K : Config S σ ι Data Input Result → Label ι Input Outcome → Prop}
    (hK : ∀ cfg l, check cfg l = true → K cfg l)
    (h : replayIf V I admits (fun play _ => play.label) check plays cfg = some cfg') :
    Reachable V (I.machine admits) K cfg cfg' :=
  reflTransGen_of_replayIf (fun _ _ _ _ => step_of_replayOne) hK h

theorem atomicReachable_of_replayIf
    {check : Config S σ ι Data Input Result → AtomicLabel S ι Input Outcome → Bool}
    {K : Config S σ ι Data Input Result → AtomicLabel S ι Input Outcome → Prop}
    (hK : ∀ cfg l, check cfg l = true → K cfg l)
    (h : replayIf V I admits (Play.atomicLabel V I admits) check plays cfg = some cfg') :
    AtomicReachable V (I.machine admits) K cfg cfg' :=
  reflTransGen_of_replayIf (fun _ _ _ _ => atomicStep_of_replayOne) hK h

end Service

end Interaction
