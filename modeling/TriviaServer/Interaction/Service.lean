import Mathlib.Data.Fintype.Defs
import Mathlib.Logic.Function.Basic
import Mathlib.Logic.Relation
import TriviaServer.Interaction.Program

/-! # Services: clients whose requests run on a shared state

A service answers the requests of any number of clients. Each client is idle with its own
data or busy with the program of its current request. In an interleaved step one client
makes one call; in an atomic step one client's request runs from start to end. -/

namespace Interaction

/-- What a client's loop does with a request: the program that serves it, and the data the
client keeps afterwards. `Outcome` is what the environment decides when a request ends. -/
structure Service (S : Signature) (Data Input Result Outcome : Type) where
  initial : Data
  admits : Data → Input → Bool
  serve : Data → Input → Program S Result
  next : Input → Result → Outcome → Option Data

inductive Client (S : Signature) (Data Input Result : Type) where
  | absent
  | idle (d : Data)
  | busy (d : Data) (i : Input) (p : Program S Result)
  | ended

/-- The operation that a client performs next. -/
def Client.nextOp {S : Signature} {Data Input Result : Type} :
    Client S Data Input Result → Option S.Op
  | .busy _ _ (.perform o _) => some o
  | _ => none

def Client.isBusy {S : Signature} {Data Input Result : Type} :
    Client S Data Input Result → Bool
  | .busy .. => true
  | _ => false

/-- What can be observed of a client: its requests, its calls and how a request ended. -/
inductive Observation (S : Signature) (Data Input Result : Type) where
  | received (d : Data) (i : Input)
  | called (e : Event S)
  | finished (d : Data) (i : Input) (a : Result) (d' : Option Data)

/-- The shared state, the clients, and everything observed so far, in order. -/
structure Config (S : Signature) (σ ι Data Input Result : Type) where
  shared : σ
  clients : ι → Client S Data Input Result
  trace : List (ι × Observation S Data Input Result)

namespace Service

variable {S : Signature} {σ ε ι Data Input Result Outcome : Type} [DecidableEq ι]
variable (V : Service S Data Input Result Outcome) (M : Machine S σ ε)

/-- Nobody has connected yet. -/
def start (s : σ) : Config S σ ι Data Input Result := ⟨s, fun _ => .absent, []⟩

/-- The client a finished request leaves behind. -/
def resting : Option Data → Client S Data Input Result
  | some d => .idle d
  | none => .ended

inductive Label (ι Input Outcome : Type) where
  | connect (c : ι)
  | receive (c : ι) (i : Input)
  | perform (c : ι)
  | finish (c : ι) (o : Outcome)

/-- One call of one client at a time, in any order. -/
inductive Step : Config S σ ι Data Input Result → Label ι Input Outcome →
    Config S σ ι Data Input Result → Prop where
  | connect {cfg c} : cfg.clients c = .absent →
      Step cfg (.connect c)
        { cfg with clients := Function.update cfg.clients c (.idle V.initial) }
  | receive {cfg c d i} : cfg.clients c = .idle d → V.admits d i = true →
      Step cfg (.receive c i)
        { cfg with
          clients := Function.update cfg.clients c (.busy d i (V.serve d i))
          trace := cfg.trace ++ [(c, .received d i)] }
  | perform {cfg c d i o next r s'} : cfg.clients c = .busy d i (.perform o next) →
      M.Step o cfg.shared r s' →
      Step cfg (.perform c)
        { shared := s'
          clients := Function.update cfg.clients c (.busy d i (next r))
          trace := cfg.trace ++ [(c, .called ⟨o, r⟩)] }
  | finish {cfg c d i a o} : cfg.clients c = .busy d i (.pure a) →
      Step cfg (.finish c o)
        { cfg with
          clients := Function.update cfg.clients c (resting (V.next i a o))
          trace := cfg.trace ++ [(c, .finished d i a (V.next i a o))] }

/-- A label of an atomic step: a new client, or a whole request with its outcome and the
answers its calls received. -/
inductive AtomicLabel (S : Signature) (ι Input Outcome : Type) where
  | connect (c : ι)
  | request (c : ι) (i : Input) (o : Outcome) (calls : List (Event S))

/-- One whole request of one client at a time, in any order. -/
inductive AtomicStep : Config S σ ι Data Input Result → AtomicLabel S ι Input Outcome →
    Config S σ ι Data Input Result → Prop where
  | connect {cfg c} : cfg.clients c = .absent →
      AtomicStep cfg (.connect c)
        { cfg with clients := Function.update cfg.clients c (.idle V.initial) }
  | request {cfg c d i o t a s'} : cfg.clients c = .idle d → V.admits d i = true →
      Exec M (V.serve d i) cfg.shared t a s' →
      AtomicStep cfg (.request c i o t)
        { shared := s'
          clients := Function.update cfg.clients c (resting (V.next i a o))
          trace := cfg.trace ++ ((c, .received d i) :: t.map fun e => (c, .called e)) ++
            [(c, .finished d i a (V.next i a o))] }

/-- Runs whose steps all satisfy `K`, a condition on the state before a step and its label. -/
def Reachable (K : Config S σ ι Data Input Result → Label ι Input Outcome → Prop) :
    Config S σ ι Data Input Result → Config S σ ι Data Input Result → Prop :=
  Relation.ReflTransGen fun cfg cfg' => ∃ l, K cfg l ∧ Step V M cfg l cfg'

def AtomicReachable (K : Config S σ ι Data Input Result → AtomicLabel S ι Input Outcome → Prop) :
    Config S σ ι Data Input Result → Config S σ ι Data Input Result → Prop :=
  Relation.ReflTransGen fun cfg cfg' => ∃ l, K cfg l ∧ AtomicStep V M cfg l cfg'

/-- The service whose clients each make one call and are gone. -/
def pool (serve : Input → Program S Result) : Service S Unit Input Result Unit where
  initial := ()
  admits _ _ := true
  serve _ i := serve i
  next _ _ _ := none

/-- The inputs received so far, with the clients they came from. -/
def received (trace : List (ι × Observation S Data Input Result)) : List (ι × Input) :=
  trace.filterMap fun e =>
    match e.2 with
    | .received _ i => some (e.1, i)
    | _ => none

section Received

omit [DecidableEq ι]

variable (trace : List (ι × Observation S Data Input Result)) (c : ι) (d : Data) (i : Input)

@[simp] theorem received_received :
    received (trace ++ [(c, .received d i)]) = received trace ++ [(c, i)] := by
  simp [received]

@[simp] theorem received_called (e : Event S) :
    received (trace ++ [(c, .called e)]) = received trace := by
  simp [received]

@[simp] theorem received_finished (a : Result) (n : Option Data) :
    received (trace ++ [(c, .finished d i a n)]) = received trace := by
  simp [received]

end Received

variable {V M}

/-- An invariant of a run: it holds at the start and every admitted step keeps it. -/
theorem Reachable.invariant {K : Config S σ ι Data Input Result → Label ι Input Outcome → Prop}
    {I : Config S σ ι Data Input Result → Prop} {cfg cfg' : Config S σ ι Data Input Result}
    (h : Reachable V M K cfg cfg') (h₀ : I cfg)
    (hstep : ∀ a l b, I a → K a l → Step V M a l b → I b) : I cfg' := by
  induction h with
  | refl => exact h₀
  | tail _ hs ih =>
      obtain ⟨l, hk, hs⟩ := hs
      exact hstep _ l _ ih hk hs

/-- A run whose steps satisfy a condition satisfies any weaker one. -/
theorem Reachable.mono {K K' : Config S σ ι Data Input Result → Label ι Input Outcome → Prop}
    {cfg cfg' : Config S σ ι Data Input Result} (h : Reachable V M K cfg cfg')
    (hK : ∀ cfg l, K cfg l → K' cfg l) : Reachable V M K' cfg cfg' := by
  induction h with
  | refl => exact .refl
  | tail _ hs ih =>
      obtain ⟨l, hk, hs⟩ := hs
      exact ih.tail ⟨l, hK _ l hk, hs⟩

/-- An induction along a run. -/
theorem AtomicReachable.along
    {K : Config S σ ι Data Input Result → AtomicLabel S ι Input Outcome → Prop}
    {I : Config S σ ι Data Input Result → Prop} {cfg cfg' : Config S σ ι Data Input Result}
    (h : AtomicReachable V M K cfg cfg') (h₀ : I cfg)
    (hstep : ∀ a l b, AtomicReachable V M K cfg a → I a → K a l → AtomicStep V M a l b → I b) :
    I cfg' := by
  induction h with
  | refl => exact h₀
  | tail hrun hs ih =>
      obtain ⟨l, hk, hs⟩ := hs
      exact hstep _ l _ hrun ih hk hs

theorem AtomicReachable.invariant
    {K : Config S σ ι Data Input Result → AtomicLabel S ι Input Outcome → Prop}
    {I : Config S σ ι Data Input Result → Prop} {cfg cfg' : Config S σ ι Data Input Result}
    (h : AtomicReachable V M K cfg cfg') (h₀ : I cfg)
    (hstep : ∀ a l b, I a → K a l → AtomicStep V M a l b → I b) : I cfg' :=
  h.along h₀ fun a l b _ => hstep a l b

/-! ## Atomic runs are interleaved runs -/

/-- A busy client can make all the calls of an execution in a row. -/
theorem reachable_of_exec {p : Program S Result} {s s' : σ} {t : List (Event S)} {a : Result}
    (hx : Exec M p s t a s') (c : ι) (d : Data) (i : Input)
    (clients : ι → Client S Data Input Result)
    (trace : List (ι × Observation S Data Input Result)) :
    Reachable V M (fun _ _ => True)
      ⟨s, Function.update clients c (.busy d i p), trace⟩
      ⟨s', Function.update clients c (.busy d i (.pure a)),
        trace ++ t.map fun e => (c, .called e)⟩ := by
  induction hx generalizing trace with
  | pure a s =>
      rw [List.map_nil, List.append_nil]
      exact Relation.ReflTransGen.refl
  | @perform o next s r s' t a s'' hs _ ih =>
      have hfirst : Step V M ⟨s, Function.update clients c (.busy d i (.perform o next)), trace⟩
          (.perform c)
          ⟨s', Function.update (Function.update clients c (.busy d i (.perform o next))) c
            (.busy d i (next r)), trace ++ [(c, .called ⟨o, r⟩)]⟩ :=
        .perform (Function.update_self ..) hs
      rw [Function.update_idem] at hfirst
      have hrest := ih (trace ++ [(c, .called ⟨o, r⟩)])
      have htail := Relation.ReflTransGen.head ⟨.perform c, trivial, hfirst⟩ hrest
      simpa only [Reachable, List.map_cons, List.append_assoc, List.singleton_append] using htail

theorem AtomicStep.reachable {cfg cfg' : Config S σ ι Data Input Result}
    {l : AtomicLabel S ι Input Outcome} (h : AtomicStep V M cfg l cfg') :
    Reachable V M (fun _ _ => True) cfg cfg' := by
  cases h with
  | connect hc => exact .single ⟨.connect _, trivial, .connect hc⟩
  | @request c d i o t a s' hc hi hx =>
      have hreceive : Step V M cfg (.receive c i) _ := .receive hc hi
      have hcalls := reachable_of_exec (V := V) hx c d i cfg.clients
        (cfg.trace ++ [(c, .received d i)])
      have hfinish : Step V M ⟨s', Function.update cfg.clients c (.busy d i (.pure a)),
          cfg.trace ++ [(c, .received d i)] ++ t.map fun e => (c, .called e)⟩ (.finish c o) _ :=
        .finish (Function.update_self ..)
      have hall := (Relation.ReflTransGen.head ⟨.receive c i, trivial, hreceive⟩ hcalls).tail
        ⟨.finish c o, trivial, hfinish⟩
      simpa only [Reachable, Function.update_idem, List.append_assoc, List.cons_append,
        List.nil_append] using hall

/-- Whatever holds of all interleaved runs holds of all atomic ones. -/
theorem AtomicReachable.reachable
    {K : Config S σ ι Data Input Result → AtomicLabel S ι Input Outcome → Prop}
    {cfg cfg' : Config S σ ι Data Input Result} (h : AtomicReachable V M K cfg cfg') :
    Reachable V M (fun _ _ => True) cfg cfg' := by
  induction h with
  | refl => exact .refl
  | tail _ hs ih =>
      obtain ⟨l, _, hs⟩ := hs
      exact ih.trans hs.reachable

/-- No request is in progress between two atomic steps. -/
def Quiescent (cfg : Config S σ ι Data Input Result) : Prop :=
  ∀ c d i p, cfg.clients c ≠ .busy d i p

omit [DecidableEq ι] in
theorem quiescent_iff {cfg : Config S σ ι Data Input Result} :
    Quiescent cfg ↔ ∀ c, (cfg.clients c).isBusy = false := by
  refine forall_congr' fun c => ?_
  cases cfg.clients c <;> simp [Client.isBusy]

instance [Fintype ι] : DecidablePred (Quiescent : Config S σ ι Data Input Result → Prop) :=
  fun _ => decidable_of_iff' _ quiescent_iff

end Service

end Interaction
