import TriviaServer.Interaction.History
import TriviaServer.Interaction.Simulation
import TriviaServer.Verification.Connections
import TriviaServer.Verification.Responses
import TriviaServer.Verification.Standing
import TriviaServer.Verification.Traffic

/-! # From sockets to requests

Every run over sockets is a run of the service whose clients read requests and send results:
the threads are the service's clients, and the bytes that went through a client's socket are
the frames of its requests and of the buffers of its results what the network took of them. -/

namespace TriviaServer

open Interaction

/-- The requests of a connection and the results that were sent. -/
structure Wire where
  requests : List RequestInfo := []
  results : List RequestResult := []

namespace Wire

def observe (w : Wire) : ServerObservation → Wire
  | .received (.waiting _) request => { w with requests := w.requests ++ [request] }
  | .finished _ _ result (some (.waiting _)) => { w with results := w.results ++ [result] }
  | _ => w

/-- The frames of the requests; an EXIT may be anything unreadable. -/
def input (w : Wire) : List UInt8 :=
  (w.requests.filter (·.requestId ≠ .exit)).flatMap RequestInfo.frame

/-- The messages that were sent. -/
def output (dump : Json → List UInt8) (w : Wire) : List (List UInt8) :=
  w.results.map (·.bytes dump)

end Wire

/-- What a trace tells of the bytes of a connection. -/
def wire (c : ℕ) (trace : List (ℕ × ServerObservation)) : Wire := follow Wire.observe {} c trace

theorem wire_self (c : ℕ) (trace : List (ℕ × ServerObservation)) (o : ServerObservation) :
    wire c (trace ++ [(c, o)]) = (wire c trace).observe o :=
  follow_self ..

theorem wire_other {c c' : ℕ} (h : c' ≠ c) (trace : List (ℕ × ServerObservation))
    (o : ServerObservation) : wire c' (trace ++ [(c, o)]) = wire c' trace :=
  follow_other _ _ h trace o

namespace Communicator

/-- No EXIT has been read, and no send has failed. -/
def Stage.isOpen : Stage → Bool
  | .starting | .waiting | .responding .. => true
  | .handling injected request _ => !injected && request.requestId != .exit
  | _ => false

/-- The client of the service that a thread with a handler is. -/
def Stage.Shows (handler : Handler) (client : Client operations Session RequestInfo RequestResult) :
    Stage → Prop
  | .starting | .waiting => client = .idle (.waiting handler)
  | .handling false request p => client = .busy (.waiting handler) request p
  | .handling true request p =>
      request.requestId = .exit ∧ client = .busy (.disconnected handler) request p
  | .responding request result => request.requestId ≠ .exit ∧ handler = result.handler ∧
      ∃ before, client = .busy (.waiting before) request (.pure result)
  | .lost => client = .idle (.disconnected handler)
  | .closing | .closed | .finished => client = .ended

variable {σ : Type} (network : Network σ) (dump : Json → List UInt8)
variable (received sent : σ → List UInt8)

/-- The bytes that went through a socket are those of the requests and what was taken of the
results, and at the end perhaps a part of one more result. -/
structure Carries (w : Wire) (stage : Stage) (socket : σ) : Prop where
  input : w.input <+: received socket
  output : ∃ bytes part result, network.Wrote (w.output dump) bytes ∧
    part <+: RequestResult.bytes dump result ∧ sent socket = bytes ++ part
  level : stage.isOpen = true →
    received socket = w.input ∧ network.Wrote (w.output dump) (sent socket)

/-- A new connection: nothing went through its socket, and it starts with a login handler. -/
def Entry.IsNew (entry : Entry σ) : Prop :=
  entry.handler = some .login ∧ received entry.socket = [] ∧ sent entry.socket = []

/-- The sockets that no thread has been started for yet. -/
def Acceptor.Holds (clients : Std.TreeMap String (Entry σ)) : Acceptor σ → Prop
  | .accepting => True
  | .accepted socket | .named socket _ => received socket = [] ∧ sent socket = []
  | .entered clientUuid => ∃ entry, clients[clientUuid]? = some entry ∧ entry.IsNew received sent

/-- The client of the service and the traffic that belong to a thread. -/
inductive Follows (clients : Std.TreeMap String (Entry σ)) :
    Client operations Session RequestInfo RequestResult → Wire → Option Thread → Prop where
  | absent : Follows clients .absent {} none
  | live {client w clientUuid stage socket handler} : stage ≠ .finished →
      clients[clientUuid]? = some ⟨socket, some handler⟩ → stage.Shows handler client →
      Carries network dump received sent w stage socket →
      Follows clients client w (some ⟨clientUuid, stage⟩)
  | ended {w clientUuid} : Follows clients .ended w (some ⟨clientUuid, .finished⟩)

/-- How the state of the server shows in a run of the service. -/
structure Refines (st : State σ) (cfg : ServerConfig) : Prop where
  tidy : Tidy st
  shared : cfg.shared = st.managers
  acceptor : st.acceptor.Holds received sent st.clients
  thread : ∀ c, Follows network dump received sent st.clients (cfg.clients c) (wire c cfg.trace)
    (st.threads c)

variable {network dump received sent}
variable {P : Platform} {d : Bool} {st st' : State σ} {who : Option ℕ}

theorem Follows.congr {clients clients' : Std.TreeMap String (Entry σ)}
    {client : Client operations Session RequestInfo RequestResult} {w : Wire} {t : Option Thread}
    (h : Follows network dump received sent clients client w t)
    (hentries : ∀ clientUuid, t.bind Thread.owned = some clientUuid →
      clients'[clientUuid]? = clients[clientUuid]?) :
    Follows network dump received sent clients' client w t := by
  cases h with
  | absent => exact .absent
  | live hlive hentry hshows hcarries =>
      refine .live hlive ?_ hshows hcarries
      rw [hentries _ (Thread.owned_live hlive)]
      exact hentry
  | ended => exact .ended

namespace Refines

variable {cfg cfg' : ServerConfig}

/-- What a step leaves alone goes on following. -/
theorem follows_other (h : Refines network dump received sent st cfg)
    (hs : Step network P dump d st who st') {c : ℕ} (hne : some c ≠ who)
    (hc : st'.threads c = st.threads c) (hclient : cfg'.clients c = cfg.clients c)
    (hwire : wire c cfg'.trace = wire c cfg.trace) :
    Follows network dump received sent st'.clients (cfg'.clients c) (wire c cfg'.trace)
      (st'.threads c) := by
  rw [hc, hclient, hwire]
  exact (h.thread c).congr fun clientUuid howned => h.tidy.isolated hs hne howned

/-- The accepting thread's own part stays as it is when a client's thread steps. -/
theorem holds_other (h : Refines network dump received sent st cfg) {c : ℕ}
    (hs : Step network P dump d st (some c) st') (hacceptor : st'.acceptor = st.acceptor) :
    st'.acceptor.Holds received sent st'.clients := by
  have hholds := h.acceptor
  rw [hacceptor]
  cases ha : st.acceptor with
  | accepting => trivial
  | accepted socket | named socket clientUuid =>
      rw [ha] at hholds
      exact hholds
  | entered clientUuid =>
      rw [ha] at hholds
      obtain ⟨entry, hentry, hnew⟩ := hholds
      refine ⟨entry, ?_, hnew⟩
      have hnone : (none : Option ℕ) ≠ some c := by simp
      rw [h.tidy.isolated hs hnone (by simp [State.owner, ha, Acceptor.owned])]
      exact hentry

/-- A step of a client's thread that goes on with a client of the service. -/
theorem advance (h : Refines network dump received sent st cfg) {c : ℕ} {clientUuid : String}
    {stage : Stage} (hs : Step network P dump d st (some c) st')
    (hthreads : st'.threads = Function.update st.threads c (some ⟨clientUuid, stage⟩))
    (hacceptor : st'.acceptor = st.acceptor) (hshared : cfg'.shared = st'.managers)
    (hothers : ∀ c', c' ≠ c → cfg'.clients c' = cfg.clients c' ∧
      wire c' cfg'.trace = wire c' cfg.trace)
    (hself : Follows network dump received sent st'.clients (cfg'.clients c) (wire c cfg'.trace)
      (some ⟨clientUuid, stage⟩)) : Refines network dump received sent st' cfg' where
  tidy := h.tidy.step hs
  shared := hshared
  acceptor := h.holds_other hs hacceptor
  thread := by
    intro c'
    by_cases hcc : c' = c
    · subst hcc
      rw [hthreads, Function.update_self]
      exact hself
    · have hne : some c' ≠ some c := by simp [hcc]
      refine h.follows_other hs hne ?_ (hothers c' hcc).1 (hothers c' hcc).2
      rw [hthreads, Function.update_of_ne hcc]

/-- A step of the accepting thread that starts no thread. -/
theorem accepting (h : Refines network dump received sent st cfg)
    (hs : Step network P dump d st none st') (hmanagers : st'.managers = st.managers)
    (hthreads : st'.threads = st.threads)
    (hholds : st'.acceptor.Holds received sent st'.clients) :
    Refines network dump received sent st' cfg where
  tidy := h.tidy.step hs
  shared := by rw [hmanagers, h.shared]
  acceptor := hholds
  thread c := h.follows_other hs (Option.some_ne_none c) (by rw [hthreads]) rfl rfl

theorem live (h : Refines network dump received sent st cfg) {c : ℕ} {clientUuid : String}
    {stage : Stage}
    (hc : st.threads c = some ⟨clientUuid, stage⟩) (hlive : stage ≠ .finished) :
    ∃ socket handler, st.clients[clientUuid]? = some ⟨socket, some handler⟩ ∧
      stage.Shows handler (cfg.clients c) ∧
      Carries network dump received sent (wire c cfg.trace) stage socket := by
  have hfollows := h.thread c
  rw [hc] at hfollows
  generalize cfg.clients c = client, wire c cfg.trace = w at hfollows ⊢
  cases hfollows with
  | live _ hentry hshows hcarries => exact ⟨_, _, hentry, hshows, hcarries⟩
  | ended => exact absurd rfl hlive

theorem entry (h : Refines network dump received sent st cfg) {c : ℕ} {clientUuid : String}
    {stage : Stage} {socket : σ} {handler : Option Handler}
    (hc : st.threads c = some ⟨clientUuid, stage⟩) (hlive : stage ≠ .finished)
    (hentry : st.clients[clientUuid]? = some ⟨socket, handler⟩) :
    ∃ handler', handler = some handler' ∧ stage.Shows handler' (cfg.clients c) ∧
      Carries network dump received sent (wire c cfg.trace) stage socket := by
  obtain ⟨socket', handler', hentry', hshows, hcarries⟩ := h.live hc hlive
  rw [hentry] at hentry'
  cases hentry'
  exact ⟨handler', rfl, hshows, hcarries⟩

end Refines

/-! ## The traffic of one step -/

namespace Carries

variable {w : Wire} {stage stage' : Stage} {socket socket' : σ}

theorem keep (h : Carries network dump received sent w stage socket)
    (hopen : stage'.isOpen = true → stage.isOpen = true) :
    Carries network dump received sent w stage' socket :=
  ⟨h.input, h.output, fun ho => h.level (hopen ho)⟩

/-- A new connection has carried nothing. -/
theorem new (hr : received socket = []) (hs : sent socket = []) :
    Carries network dump received sent {} stage socket := by
  constructor
  · simp [Wire.input]
  · exact ⟨[], [], { buffer := none, self := .login }, .nil, List.nil_prefix, hs⟩
  · intro _
    rw [hr, hs]
    exact ⟨rfl, .nil⟩

theorem read (hn : network.Counts received sent)
    (h : Carries network dump received sent w .waiting socket) {request : RequestInfo}
    (hr : SocketHelper.getRequestInfo network.toSocket socket = (.ok request, socket'))
    (p : Action RequestResult) : Carries network dump received sent
      { w with requests := w.requests ++ [request] } (.handling false request p) socket' := by
  obtain ⟨hgrows, hsent, hframe⟩ := hn.getRequestInfo hr
  obtain ⟨hin, hout⟩ := h.level rfl
  by_cases hexit : request.requestId = .exit
  · constructor
    · simpa [Wire.input, hexit] using h.input.trans hgrows
    · rw [hsent]
      exact h.output
    · simp [Stage.isOpen, hexit]
  · have hinput : received socket' =
        Wire.input { w with requests := w.requests ++ [request] } := by
      simp [Wire.input, hexit, hframe hexit, hin]
    constructor
    · exact hinput ▸ List.prefix_rfl
    · rw [hsent]
      exact h.output
    · exact fun _ => ⟨hinput, hsent.symm ▸ hout⟩

theorem respond (hn : network.Counts received sent) {request : RequestInfo}
    {result : RequestResult}
    (h : Carries network dump received sent w (.responding request result) socket)
    (hs : SocketHelper.sendData network socket (result.bytes dump) = (none, socket')) :
    Carries network dump received sent { w with results := w.results ++ [result] } .waiting
      socket' := by
  obtain ⟨hreceived, part, -, hsent, htakes⟩ := hn.sendData hs
  obtain ⟨hin, hout⟩ := h.level rfl
  have houtput : network.Wrote (Wire.output dump { w with results := w.results ++ [result] })
      (sent socket') := by
    rw [hsent, Wire.output, List.map_append]
    exact hout.snoc (htakes rfl)
  constructor
  · rw [hreceived]
    exact h.input
  · exact ⟨sent socket', [], result, houtput, List.nil_prefix, (List.append_nil _).symm⟩
  · exact fun _ => ⟨hreceived.trans hin, houtput⟩

theorem lose (hn : network.Counts received sent) {request : RequestInfo}
    {result : RequestResult} {e : Option Error}
    (h : Carries network dump received sent w (.responding request result) socket)
    (hs : SocketHelper.sendData network socket (result.bytes dump) = (e, socket')) :
    Carries network dump received sent w .lost socket' := by
  obtain ⟨hreceived, part, hpart, hsent, -⟩ := hn.sendData hs
  obtain ⟨-, hout⟩ := h.level rfl
  constructor
  · rw [hreceived]
    exact h.input
  · exact ⟨sent socket, part, result, hout, hpart, hsent⟩
  · simp [Stage.isOpen]

theorem close (hn : network.Counts received sent)
    (h : Carries network dump received sent w .closing socket) :
    Carries network dump received sent w .closed (network.close socket) := by
  obtain ⟨hreceived, hsent⟩ := hn.close socket
  constructor
  · rw [hreceived]
    exact h.input
  · rw [hsent]
    exact h.output
  · simp [Stage.isOpen]

end Carries

/-! ## The simulation -/

/-- One step of the service, of any of its clients. -/
abbrev ServiceStep (P : Platform) (dbSucceeds : Bool) (cfg cfg' : ServerConfig) : Prop :=
  ∃ l, True ∧ Service.Step (handleClient P) (machine dbSucceeds) cfg l cfg'

theorem simulates (hn : network.Counts received sent) :
    Simulates (Refines network dump received sent) (fun a b => ∃ who, Step network P dump d a who b)
      (ServiceStep P d) := by
  rintro st st' cfg h ⟨who, hs⟩
  cases id hs with
  | accept _ haccepts => exact stutter (h.accepting hs rfl rfl (hn.accepts _ haccepts))
  | generateUUID hacceptor _ =>
      have hholds := h.acceptor
      rw [hacceptor] at hholds
      exact stutter (h.accepting hs rfl rfl hholds)
  | @enter socket clientUuid hacceptor =>
      have hholds := h.acceptor
      rw [hacceptor] at hholds
      refine stutter (h.accepting hs rfl rfl ⟨⟨socket, some .login⟩, ?_, rfl, hholds⟩)
      exact Std.TreeMap.getElem?_insert_self
  | @spawn clientUuid c hacceptor hc =>
      have hfollows := h.thread c
      rw [hc] at hfollows
      generalize hclient : cfg.clients c = client, hw : wire c cfg.trace = w at hfollows
      cases hfollows
      have hholds := h.acceptor
      rw [hacceptor] at hholds
      obtain ⟨⟨socket, handler⟩, hentry, hhandler, hreceived, hsent⟩ := hholds
      obtain rfl : handler = some .login := hhandler
      refine match_once ⟨.connect c, trivial, .connect hclient⟩
        ⟨h.tidy.step hs, h.shared, trivial, fun c' => ?_⟩
      by_cases hcc : c' = c
      · subst hcc
        simp only [State.setStage, Function.update_self, hw]
        exact .live (by simp) hentry rfl (.new hreceived hsent)
      · refine h.follows_other hs (Option.some_ne_none c') ?_ ?_ rfl
        · exact Function.update_of_ne hcc ..
        · exact Function.update_of_ne hcc ..
  | @find c clientUuid hc =>
      obtain ⟨socket, handler, hentry, hshows, hcarries⟩ := h.live hc (by simp)
      refine stutter (h.advance hs rfl rfl h.shared (fun _ _ => ⟨rfl, rfl⟩)
        (.live (by simp) ?_ hshows (hcarries.keep fun _ => rfl)))
      have hmem : clientUuid ∈ st.clients := by
        simp [Std.TreeMap.mem_iff_isSome_getElem?, hentry]
      rw [Std.TreeMap.getElem?_insertIfNew, if_neg fun hnew => hnew.2 hmem]
      exact hentry
  | @read c clientUuid socket handler request socket' hc hentry hread =>
      obtain ⟨_, hhandler, hshows, hcarries⟩ := h.entry hc (by simp) hentry
      cases hhandler
      refine match_once ⟨.receive c request, trivial, .receive hshows rfl⟩
        (h.advance hs rfl rfl h.shared (fun c' hcc => ⟨?_, wire_other hcc _ _⟩) ?_)
      · exact Function.update_of_ne hcc ..
      · simp only [Function.update_self, wire_self]
        exact .live (by simp) Std.TreeMap.getElem?_insert_self rfl (hcarries.read hn hread _)
  | @call c clientUuid injected request o next r managers hc hstep =>
      obtain ⟨socket, handler, hentry, hshows, hcarries⟩ := h.live hc (by simp)
      rw [← h.shared] at hstep
      cases injected with
      | false =>
          refine match_once ⟨.perform c, trivial, .perform hshows hstep⟩
            (h.advance hs rfl rfl rfl (fun c' hcc => ⟨?_, wire_other hcc _ _⟩) ?_)
          · exact Function.update_of_ne hcc ..
          · simp only [Function.update_self, wire_self]
            exact .live (by simp) hentry rfl (hcarries.keep id)
      | true =>
          refine match_once ⟨.perform c, trivial, .perform hshows.2 hstep⟩
            (h.advance hs rfl rfl rfl (fun c' hcc => ⟨?_, wire_other hcc _ _⟩) ?_)
          · exact Function.update_of_ne hcc ..
          · simp only [Function.update_self, wire_self]
            exact .live (by simp) hentry ⟨hshows.1, rfl⟩ (hcarries.keep id)
  | @returns c clientUuid socket handler request result hc hentry =>
      obtain ⟨before, rfl, hshows, hcarries⟩ := h.entry hc (by simp) hentry
      by_cases hexit : request.requestId = .exit
      · refine match_once ⟨.finish c true, trivial, .finish hshows⟩
          (h.advance hs rfl rfl h.shared (fun c' hcc => ⟨?_, wire_other hcc _ _⟩) ?_)
        · exact Function.update_of_ne hcc ..
        · simp only [Function.update_self, wire_self, hexit, handleClient, if_true]
          refine .live (by simp) Std.TreeMap.getElem?_insert_self rfl ?_
          exact hcarries.keep (by simp [Stage.isOpen])
      · simp only [hexit, if_false] at hs ⊢
        refine stutter (h.advance hs rfl rfl h.shared (fun _ _ => ⟨rfl, rfl⟩) ?_)
        refine .live (by simp) Std.TreeMap.getElem?_insert_self ⟨hexit, rfl, before, hshows⟩ ?_
        exact hcarries.keep (by simp [Stage.isOpen, hexit])
  | @respond c clientUuid socket handler request result socket' hc hentry hsend =>
      obtain ⟨_, rfl, ⟨hexit, rfl, before, hshows⟩, hcarries⟩ := h.entry hc (by simp) hentry
      refine match_once ⟨.finish c true, trivial, .finish hshows⟩
        (h.advance hs rfl rfl h.shared (fun c' hcc => ⟨?_, wire_other hcc _ _⟩) ?_)
      · exact Function.update_of_ne hcc ..
      · simp only [Function.update_self, wire_self, handleClient, hexit, if_false, if_true]
        exact .live (by simp) Std.TreeMap.getElem?_insert_self rfl (hcarries.respond hn hsend)
  | @lose c clientUuid socket handler request result e socket' hc hentry hsend =>
      obtain ⟨_, rfl, ⟨hexit, rfl, before, hshows⟩, hcarries⟩ := h.entry hc (by simp) hentry
      refine match_once ⟨.finish c false, trivial, .finish hshows⟩
        (h.advance hs rfl rfl h.shared (fun c' hcc => ⟨?_, wire_other hcc _ _⟩) ?_)
      · exact Function.update_of_ne hcc ..
      · simp only [Function.update_self, wire_self, handleClient, hexit, if_false]
        exact .live (by simp) Std.TreeMap.getElem?_insert_self rfl (hcarries.lose hn hsend)
  | @inject c clientUuid socket handler hc hentry =>
      obtain ⟨_, hhandler, hshows, hcarries⟩ := h.entry hc (by simp) hentry
      cases hhandler
      refine match_once ⟨.receive c exitRequest, trivial, .receive hshows (by simp [handleClient])⟩
        (h.advance hs rfl rfl h.shared (fun c' hcc => ⟨?_, wire_other hcc _ _⟩) ?_)
      · exact Function.update_of_ne hcc ..
      · simp only [Function.update_self, wire_self]
        exact .live (by simp) hentry ⟨rfl, rfl⟩ (hcarries.keep (by simp [Stage.isOpen]))
  | @drop c clientUuid request result hc =>
      obtain ⟨socket, handler, hentry, ⟨hexit, hshows⟩, hcarries⟩ := h.live hc (by simp)
      refine match_once ⟨.finish c true, trivial, .finish hshows⟩
        (h.advance hs rfl rfl h.shared (fun c' hcc => ⟨?_, wire_other hcc _ _⟩) ?_)
      · exact Function.update_of_ne hcc ..
      · simp only [Function.update_self, wire_self, hexit, handleClient, if_true]
        exact .live (by simp) hentry rfl (hcarries.keep (by simp [Stage.isOpen]))
  | @close c clientUuid socket handler hc hentry =>
      obtain ⟨_, rfl, hshows, hcarries⟩ := h.entry hc (by simp) hentry
      exact stutter (h.advance hs rfl rfl h.shared (fun _ _ => ⟨rfl, rfl⟩)
        (.live (by simp) Std.TreeMap.getElem?_insert_self hshows (hcarries.close hn)))
  | @erase c clientUuid hc =>
      obtain ⟨socket, handler, hentry, hshows, hcarries⟩ := h.live hc (by simp)
      refine stutter (h.advance hs rfl rfl h.shared (fun _ _ => ⟨rfl, rfl⟩) ?_)
      rw [hshows]
      exact .ended

theorem Refines.init (database : Database) :
    Refines network dump received sent (.init database : State σ) (ServerConfig.init database) :=
  ⟨.init database, rfl, trivial, fun _ => .absent⟩

end Communicator

/-! ## Requests and their results -/

/-- A result that is sent for a request. -/
def Answered (request : RequestInfo) (result : RequestResult) : Prop :=
  request.requestId ≠ .exit ∧ result.Answers request.requestId

/-- Every request has been answered, in order, except for the one in hand. -/
def Paired (w : Wire) : Client operations Session RequestInfo RequestResult → Prop
  | .absent | .idle (.waiting _) => List.Forall₂ Answered w.requests w.results
  | .busy (.waiting _) request p => ∃ answered, w.requests = answered ++ [request] ∧
      List.Forall₂ Answered answered w.results ∧
      (request.requestId ≠ .exit → Answering request.requestId p)
  | .busy (.disconnected _) request _ => request.requestId = .exit ∧
      ∃ answered, answered <+: w.requests ∧ List.Forall₂ Answered answered w.results
  | .idle (.disconnected _) | .ended =>
      ∃ answered, answered <+: w.requests ∧ List.Forall₂ Answered answered w.results

/-- An observation of one connection leaves the others paired. -/
theorem Paired.snoc {cfg : ServerConfig} (h : ∀ c, Paired (wire c cfg.trace) (cfg.clients c))
    {c : ℕ} {o : ServerObservation}
    {client : Client operations Session RequestInfo RequestResult}
    (hself : Paired ((wire c cfg.trace).observe o) client) (c' : ℕ) :
    Paired (wire c' (cfg.trace ++ [(c, o)])) (Function.update cfg.clients c client c') := by
  by_cases hcc : c' = c
  · subst hcc
    rw [wire_self, Function.update_self]
    exact hself
  · rw [wire_other hcc, Function.update_of_ne hcc]
    exact h c'

theorem Paired.step {P : Platform} {d : Bool} {cfg cfg' : ServerConfig}
    {l : Service.Label ℕ RequestInfo Bool} (h : ∀ c, Paired (wire c cfg.trace) (cfg.clients c))
    (hs : Service.Step (handleClient P) (machine d) cfg l cfg') :
    ∀ c, Paired (wire c cfg'.trace) (cfg'.clients c) := by
  cases hs with
  | @connect c hc =>
      have hself := h c
      rw [hc] at hself
      intro c'
      by_cases hcc : c' = c
      · subst hcc
        simp only [Function.update_self]
        exact hself
      · simp only [Function.update_of_ne hcc]
        exact h c'
  | @receive c session request hc hadmits =>
      have hself := h c
      rw [hc] at hself
      apply Paired.snoc h
      cases session with
      | waiting handler =>
          exact ⟨_, rfl, hself, fun hexit => handler.handleRequest_answers P request hexit⟩
      | disconnected handler =>
          obtain rfl : request = exitRequest := of_decide_eq_true hadmits
          exact ⟨rfl, hself⟩
  | @perform c session request o next r s' hc hstep =>
      have hself := h c
      rw [hc] at hself
      apply Paired.snoc h
      cases session with
      | waiting handler =>
          obtain ⟨answered, hrequests, hpairs, hreturns⟩ := hself
          exact ⟨answered, hrequests, hpairs, fun hexit => hreturns hexit r⟩
      | disconnected handler => exact hself
  | @finish c session request result sent hc =>
      have hself := h c
      rw [hc] at hself
      apply Paired.snoc h
      by_cases hexit : request.requestId = .exit
      · simp only [handleClient, hexit, if_true, Service.resting]
        cases session with
        | waiting handler =>
            obtain ⟨answered, hrequests, hpairs, -⟩ := hself
            exact ⟨answered, ⟨_, hrequests.symm⟩, hpairs⟩
        | disconnected handler => exact hself.2
      · simp only [handleClient, hexit, if_false]
        cases session with
        | waiting handler =>
            obtain ⟨answered, hrequests, hpairs, hreturns⟩ := hself
            cases sent with
            | true =>
                have hlast : Answered request result := ⟨hexit, hreturns hexit⟩
                simp only [if_true, Service.resting, Paired, Wire.observe, hrequests]
                exact List.rel_append hpairs (.cons hlast .nil)
            | false => exact ⟨answered, ⟨_, hrequests.symm⟩, hpairs⟩
        | disconnected handler => exact absurd hself.1 hexit

theorem InterleavedRun.paired {P : Platform} {d : Bool} {cfg : ServerConfig}
    (h : InterleavedRun P d cfg) : ∀ c, Paired (wire c cfg.trace) (cfg.clients c) := by
  obtain ⟨database, h⟩ := h
  exact h.invariant (I := fun cfg => ∀ c, Paired (wire c cfg.trace) (cfg.clients c))
    (fun _ => List.Forall₂.nil) fun _ _ _ ih _ hs => Paired.step ih hs

/-! ## The conversation of a connection -/

/-- A request with the response that was sent for it. -/
abbrev Exchange : Type := RequestInfo × Response

def Exchange.IsAnswer (e : Exchange) : Prop :=
  e.1.requestId ≠ .exit ∧ e.2.Matches e.1.requestId

open JsonSerializer (serializeResponse)

theorem exchanges_of_answered (dump : Json → List UInt8) {requests : List RequestInfo}
    {results : List RequestResult} (h : List.Forall₂ Answered requests results) :
    ∃ exchanges : List Exchange, (∀ e ∈ exchanges, e.IsAnswer) ∧
      exchanges.map Prod.fst = requests ∧
      exchanges.map (fun e => serializeResponse dump e.2) = results.map (·.bytes dump) := by
  induction h with
  | nil => exact ⟨[], by simp, rfl, rfl⟩
  | @cons request result requests results hfirst _ ih =>
      obtain ⟨exchanges, hanswers, hrequests, hbytes⟩ := ih
      obtain ⟨hexit, response, hbuffer, hmatches⟩ := hfirst
      refine ⟨(request, response) :: exchanges, ?_, by simp [hrequests], ?_⟩
      · intro e he
        rcases List.mem_cons.mp he with rfl | he
        · exact ⟨hexit, hmatches⟩
        · exact hanswers e he
      · simp [hbytes, RequestResult.bytes, hbuffer]

theorem frames_of_answered {requests : List RequestInfo} {results : List RequestResult}
    (h : List.Forall₂ Answered requests results) :
    requests.filter (·.requestId ≠ .exit) = requests := by
  induction h with
  | nil => rfl
  | cons hfirst _ ih => rw [List.filter_cons_of_pos (by simp [hfirst.1]), ih]

namespace Communicator

/-- The request that has been read and not answered yet. -/
def Stage.inHand : Stage → List RequestInfo
  | .handling false request _ | .responding request _ => [request]
  | _ => []

/-- What the threads' stages say of the requests. -/
theorem Stage.Shows.answered {stage : Stage} {handler : Handler}
    {client : Client operations Session RequestInfo RequestResult} {w : Wire}
    (hshows : stage.Shows handler client) (h : Paired w client) :
    ∃ answered, answered <+: w.requests ∧ List.Forall₂ Answered answered w.results ∧
      (stage.isOpen = true → w.requests = answered ++ stage.inHand ∧
        ∀ request ∈ stage.inHand, request.requestId ≠ .exit) := by
  cases stage with
  | starting | waiting =>
      rw [hshows] at h
      exact ⟨w.requests, List.prefix_rfl, h, fun _ => by simp [inHand]⟩
  | handling injected request p =>
      cases injected with
      | false =>
          rw [hshows] at h
          obtain ⟨answered, hrequests, hpairs, -⟩ := h
          refine ⟨answered, ⟨_, hrequests.symm⟩, hpairs, fun hopen => ⟨hrequests, ?_⟩⟩
          simpa [isOpen, inHand] using hopen
      | true =>
          rw [hshows.2] at h
          obtain ⟨-, answered, hprefix, hpairs⟩ := h
          exact ⟨answered, hprefix, hpairs, by simp [isOpen]⟩
  | responding request result =>
      obtain ⟨hexit, -, before, rfl⟩ := hshows
      obtain ⟨answered, hrequests, hpairs, -⟩ := h
      refine ⟨answered, ⟨_, hrequests.symm⟩, hpairs, fun _ => ⟨hrequests, ?_⟩⟩
      simpa [inHand] using hexit
  | lost | closing | closed | finished =>
      rw [hshows] at h
      obtain ⟨answered, hprefix, hpairs⟩ := h
      exact ⟨answered, hprefix, hpairs, by simp [isOpen]⟩

variable {σ : Type} {network : Network σ} {P : Platform} {dump : Json → List UInt8} {d : Bool}
variable {received sent : σ → List UInt8} {st : State σ}

/-- A first connection that asks for the rooms before it has logged in. -/
def refusedSocket (window : ℕ) : Pipe :=
  { window, incoming := (⟨.getRoomsRequest, [0]⟩ : RequestInfo).frame }

def refusedText : List UInt8 := ascii "\x7b\"message\":\"Request is not relevant\"\x7d"

def refusedMessage : List UInt8 := 0 :: 0 :: 0 :: 0 :: 37 :: refusedText

theorem refused_reachable (window : ℕ) : ∃ st : State Pipe,
    Reachable pipeNetwork samplePlatform (fun _ => refusedText) true st ∧
      st.threads 0 = some ⟨"client", .waiting⟩ ∧
      st.clients["client"]? = some
        ⟨{ window, received := [4, 0, 0, 0, 1, 0], sent := refusedMessage.take window },
          some .login⟩ := by
  have hread : SocketHelper.getRequestInfo pipeNetwork.toSocket (refusedSocket window) =
      (.ok ⟨.getRoomsRequest, [0]⟩, { window, received := [4, 0, 0, 0, 1, 0] }) := rfl
  have hsend : SocketHelper.sendData pipeNetwork { window, received := [4, 0, 0, 0, 1, 0] }
      (RequestResult.bytes (fun _ => refusedText) (notRelevant.toRequestResult .login)) =
      (none,
        { window, received := [4, 0, 0, 0, 1, 0], sent := refusedMessage.take window }) :=
    rfl
  have hunused : "client" ∉ (∅ : Std.TreeMap String (Entry Pipe)) := by simp
  refine ⟨_, ⟨.empty, .tail (.tail (.tail (.tail (.tail (.tail (.tail (.tail .refl
    ⟨none, .accept rfl (show pipeNetwork.accepts (refusedSocket window) from ⟨rfl, rfl⟩)⟩)
    ⟨none, .generateUUID rfl hunused⟩)
    ⟨none, .enter rfl⟩)
    ⟨none, .spawn (c := 0) rfl rfl⟩)
    ⟨some 0, .find rfl⟩)
    ⟨some 0, .read rfl rfl hread⟩)
    ⟨some 0, .returns rfl rfl⟩)
    ⟨some 0, .respond rfl rfl hsend⟩⟩, rfl, rfl⟩

/-- Every run over sockets is a run of the service, with the threads as its clients and its
requests and results on the wire. -/
theorem sockets_refine (hn : network.Counts received sent) (h : Reachable network P dump d st) :
    ∃ cfg, InterleavedRun P d cfg ∧ Refines network dump received sent st cfg := by
  obtain ⟨database, h⟩ := h
  obtain ⟨cfg, hservice, hrefines⟩ := (simulates hn).run (.init database) h
  exact ⟨cfg, ⟨database, hservice⟩, hrefines⟩

/-- A run in which the network takes three bytes of the response only. -/
theorem sockets_refine_refused : ∃ (st : State Pipe) (cfg : ServerConfig),
    st.threads 0 = some ⟨"client", .waiting⟩ ∧
      (st.clients["client"]?.map fun entry => entry.socket.sent) = some [0, 0, 0] ∧
      InterleavedRun samplePlatform true cfg ∧
      Refines pipeNetwork (fun _ => refusedText) Pipe.received Pipe.sent st cfg := by
  obtain ⟨st, hreach, hthread, hentry⟩ := refused_reachable 3
  obtain ⟨cfg, hrun, hrefines⟩ := sockets_refine pipeNetwork_counts hreach
  exact ⟨st, cfg, hthread, by rw [hentry]; rfl, hrun, hrefines⟩

/-- At any time the bytes read from a live connection are the frames of its requests, and those
written are what the network took of one response for each request in order, with the request
in hand unanswered. Once an EXIT is met or a send fails, a part of one more response may
follow. -/
theorem conversation (hn : network.Counts received sent) (h : Reachable network P dump d st)
    {c : ℕ} {clientUuid : String} {stage : Stage} {entry : Entry σ}
    (hc : st.threads c = some ⟨clientUuid, stage⟩) (hlive : stage ≠ .finished)
    (hentry : st.clients[clientUuid]? = some entry) :
    ∃ exchanges : List Exchange, (∀ e ∈ exchanges, e.IsAnswer) ∧
      (exchanges.map Prod.fst).flatMap RequestInfo.frame <+: received entry.socket ∧
      (∃ bytes part result,
        network.Wrote (exchanges.map fun e => serializeResponse dump e.2) bytes ∧
        part <+: RequestResult.bytes dump result ∧ sent entry.socket = bytes ++ part) ∧
      (stage.isOpen = true →
        received entry.socket =
          (exchanges.map Prod.fst ++ stage.inHand).flatMap RequestInfo.frame ∧
        network.Wrote (exchanges.map fun e => serializeResponse dump e.2)
          (sent entry.socket)) := by
  obtain ⟨database, h⟩ := h
  obtain ⟨cfg, hservice, hrefines⟩ := (simulates hn).run (.init database) h
  have hrun : InterleavedRun P d cfg := ⟨database, hservice⟩
  obtain ⟨handler, -, hshows, hcarries⟩ := hrefines.entry hc hlive hentry
  obtain ⟨answered, hprefix, hpairs, hopen⟩ := hshows.answered (hrun.paired c)
  obtain ⟨exchanges, hanswers, rfl, hbytes⟩ := exchanges_of_answered dump hpairs
  have hframes := frames_of_answered hpairs
  have houtput : (wire c cfg.trace).output dump =
      exchanges.map fun e => serializeResponse dump e.2 := hbytes.symm
  refine ⟨exchanges, hanswers, ?_, houtput ▸ hcarries.output, fun ho => ?_⟩
  · refine List.IsPrefix.trans ?_ hcarries.input
    obtain ⟨rest, hrest⟩ := hprefix
    rw [Wire.input, ← hrest, List.filter_append, hframes, List.flatMap_append]
    exact List.prefix_append _ _
  · obtain ⟨hrequests, hexit⟩ := hopen ho
    obtain ⟨hreceived, hsent⟩ := hcarries.level ho
    refine ⟨?_, houtput ▸ hsent⟩
    have hhand : stage.inHand.filter (·.requestId ≠ .exit) = stage.inHand :=
      List.filter_eq_self.mpr fun request hr => by simp [hexit request hr]
    rw [hreceived, Wire.input, hrequests, List.filter_append, hframes, hhand]

/-- Its conversation with a network that takes whole messages: one request, one response. -/
theorem conversation_refused : ∃ exchanges : List Exchange,
    (∀ e ∈ exchanges, e.IsAnswer) ∧
      (exchanges.map Prod.fst).flatMap RequestInfo.frame = [4, 0, 0, 0, 1, 0] ∧
      pipeNetwork.Wrote (exchanges.map fun e => serializeResponse (fun _ => refusedText) e.2)
        refusedMessage := by
  obtain ⟨st, hreach, hthread, hentry⟩ := refused_reachable 64
  obtain ⟨exchanges, hanswers, -, -, hopen⟩ :=
    conversation pipeNetwork_counts hreach hthread (by simp) hentry
  obtain ⟨hreceived, hsent⟩ := hopen rfl
  exact ⟨exchanges, hanswers, by simpa [Stage.inHand] using hreceived.symm, hsent⟩

end Communicator

end TriviaServer
