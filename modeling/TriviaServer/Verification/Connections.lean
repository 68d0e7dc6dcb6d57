import Mathlib.Data.Fintype.EquivFin
import TriviaServer.Interaction.Ownership
import TriviaServer.Verification.Replays
import TriviaServer.Verification.Traffic

/-! # The map of clients

Every entry of `_clients` belongs to one thread, or to the accepting thread until it has
started one. -/

namespace TriviaServer

open Interaction

namespace Communicator

/-- The entry that a thread uses. -/
def Thread.owned (t : Thread) : Option String :=
  match t.stage with
  | .finished => none
  | _ => some t.clientUuid

theorem Thread.owned_live {clientUuid : String} {stage : Stage} (hlive : stage ≠ .finished) :
    Thread.owned ⟨clientUuid, stage⟩ = some clientUuid := by
  cases stage <;> simp_all [Thread.owned]

/-- The entry that no thread has been started for yet. -/
def Acceptor.owned {σ : Type} : Acceptor σ → Option String
  | .entered clientUuid => some clientUuid
  | _ => none

namespace State

variable {σ : Type}

/-- The accepting thread is `none`. -/
def owner (st : State σ) : Option ℕ → Option String
  | none => st.acceptor.owned
  | some c => (st.threads c).bind Thread.owned

variable {st : State σ} {c : ℕ} {clientUuid : String} {stage : Stage}

theorem owner_live (hc : st.threads c = some ⟨clientUuid, stage⟩) (hlive : stage ≠ .finished) :
    st.owner (some c) = some clientUuid := by
  simp [owner, hc, Thread.owned_live hlive]

theorem owner_update (st : State σ) (c : ℕ) (t : Thread) {st' : State σ}
    (ht : st'.threads = Function.update st.threads c (some t)) :
    st'.owner =
      Function.update (Function.update st.owner none st'.acceptor.owned) (some c) t.owned := by
  funext who
  cases who with
  | none => rfl
  | some c' =>
      by_cases hcc : c' = c
      · subst hcc
        simp [owner, ht]
      · simp [owner, ht, hcc]

/-- A step of a thread moves no other. -/
theorem owner_move (st : State σ) (c : ℕ) (t : Thread) {st' : State σ}
    (ht : st'.threads = Function.update st.threads c (some t))
    (hacceptor : st'.acceptor = st.acceptor) :
    st'.owner = Function.update st.owner (some c) t.owned := by
  rw [owner_update st c t ht, hacceptor]
  exact congrArg (Function.update · (some c) t.owned) (Function.update_eq_self none st.owner)

/-- A thread that goes on keeps its entry. -/
theorem owner_setStage_live {before : Stage} (hc : st.threads c = some ⟨clientUuid, before⟩)
    (hlive : Thread.owned ⟨clientUuid, before⟩ = Thread.owned ⟨clientUuid, stage⟩) :
    (st.setStage c clientUuid stage).owner = st.owner := by
  have hmove : (st.setStage c clientUuid stage).owner = _ :=
    owner_move st c ⟨clientUuid, stage⟩ rfl rfl
  rw [hmove, ← hlive]
  exact Function.update_eq_self_iff.mpr (by simp [owner, hc])

theorem owner_accepting {acceptor : Acceptor σ} (ho : acceptor.owned = st.acceptor.owned) :
    ({ st with acceptor } : State σ).owner = st.owner := by
  funext who
  cases who with
  | none => exact ho
  | some c => rfl

end State

variable {σ : Type} {network : Network σ} {P : Platform} {dump : Json → List UInt8} {d : Bool}
variable {st st' : State σ} {who : Option ℕ}

/-- The entries are those of the threads, their handlers are not null, and a uuid that the
accepting thread has generated is unused. -/
structure Tidy (st : State σ) : Prop where
  owned : Owned (· ∈ st.clients) st.owner
  handled : ∀ (clientUuid : String) (entry : Entry σ),
    st.clients[clientUuid]? = some entry → entry.handler ≠ none
  fresh : ∀ socket clientUuid, st.acceptor = .named socket clientUuid →
    clientUuid ∉ st.clients

namespace Tidy

theorem init (database : Database) : Tidy (.init database : State σ) where
  owned := by
    constructor
    · intro clientUuid
      have hempty : clientUuid ∉ (State.init database : State σ).clients :=
        Std.TreeMap.not_mem_emptyc
      refine iff_of_false hempty ?_
      rintro ⟨_ | c, h⟩ <;> cases h
    · rintro (_ | c) c' clientUuid h <;> cases h
  handled := by simp [State.init]
  fresh := by simp [State.init]

theorem entry (h : Tidy st) {clientUuid : String} (hw : st.owner who = some clientUuid) :
    ∃ socket handler, st.clients[clientUuid]? = some ⟨socket, some handler⟩ := by
  have hmem := h.owned.mem hw
  obtain ⟨⟨socket, handler⟩, hentry⟩ :=
    Option.isSome_iff_exists.mp (Std.TreeMap.mem_iff_isSome_getElem?.mp hmem)
  obtain ⟨handler, rfl⟩ := Option.ne_none_iff_exists'.mp (h.handled _ _ hentry)
  exact ⟨socket, handler, hentry⟩

/-- A step that adds and removes no entry. -/
theorem same (h : Tidy st) (hacceptor : st'.acceptor = st.acceptor) (howner : st'.owner = st.owner)
    (hmem : ∀ clientUuid, clientUuid ∈ st'.clients ↔ clientUuid ∈ st.clients)
    (hhandled : ∀ (clientUuid : String) (entry : Entry σ),
      st'.clients[clientUuid]? = some entry → entry.handler ≠ none) : Tidy st' where
  owned := h.owned.congr howner hmem
  handled := hhandled
  fresh := by
    intro socket clientUuid hnamed
    rw [hacceptor] at hnamed
    rw [hmem]
    exact h.fresh socket clientUuid hnamed

variable {c : ℕ} {clientUuid : String} {before stage : Stage}

theorem setStage (h : Tidy st) (hc : st.threads c = some ⟨clientUuid, before⟩)
    (hlive : Thread.owned ⟨clientUuid, before⟩ = Thread.owned ⟨clientUuid, stage⟩) :
    Tidy (st.setStage c clientUuid stage) :=
  h.same rfl (State.owner_setStage_live hc hlive) (fun _ => Iff.rfl) h.handled

theorem setEntry (h : Tidy st) {entry : Entry σ} (hentry : st.clients[clientUuid]? = some entry)
    (socket : σ) {handler : Option Handler} (hhandler : handler ≠ none) :
    Tidy (st.setEntry clientUuid ⟨socket, handler⟩) := by
  refine h.same rfl rfl (fun clientUuid' => ?_) ?_
  · have hmem : clientUuid ∈ st.clients := by
      simp [Std.TreeMap.mem_iff_isSome_getElem?, hentry]
    simp only [State.setEntry, Std.TreeMap.mem_insert, Std.compare_eq_iff_eq]
    constructor
    · rintro (rfl | hmem')
      · exact hmem
      · exact hmem'
    · exact .inr
  · intro clientUuid' entry' hentry
    rw [State.setEntry, Std.TreeMap.getElem?_insert] at hentry
    split_ifs at hentry with hsame
    · cases hentry
      exact hhandler
    · exact h.handled _ _ hentry

theorem step (h : Tidy st) (hs : Step network P dump d st who st') : Tidy st' := by
  cases hs with
  | accept hacceptor =>
      constructor
      · exact h.owned.congr (State.owner_accepting (by simp [hacceptor, Acceptor.owned]))
          fun _ => Iff.rfl
      · exact h.handled
      · intro socket clientUuid hnamed
        cases hnamed
  | generateUUID hacceptor hunused =>
      constructor
      · exact h.owned.congr (State.owner_accepting (by simp [hacceptor, Acceptor.owned]))
          fun _ => Iff.rfl
      · exact h.handled
      · intro socket clientUuid hnamed
        cases hnamed
        exact hunused
  | @enter socket clientUuid hacceptor =>
      have hnew := h.fresh _ _ hacceptor
      constructor
      · have hnone : st.owner none = none := by simp [State.owner, hacceptor, Acceptor.owned]
        have htake := h.owned.take hnew hnone fun _ => Iff.rfl
        refine htake.congr ?_ fun clientUuid' => ?_
        · funext who
          cases who <;> rfl
        · simp only [State.setEntry, Std.TreeMap.mem_insert, Std.compare_eq_iff_eq,
            @eq_comm _ clientUuid]
      · intro clientUuid' entry hentry
        simp only [State.setEntry, Std.TreeMap.getElem?_insert] at hentry
        split_ifs at hentry
        · cases hentry
          exact Option.some_ne_none _
        · exact h.handled _ _ hentry
      · intro socket' clientUuid' hnamed
        cases hnamed
  | @spawn clientUuid c hacceptor hc =>
      constructor
      · have hnone : st.owner none = some clientUuid := by
          simp [State.owner, hacceptor, Acceptor.owned]
        have hsome : st.owner (some c) = none := by simp [State.owner, hc]
        have hgive := h.owned.give hnone hsome
        exact hgive.congr (State.owner_update st c ⟨clientUuid, .starting⟩ rfl) fun _ => Iff.rfl
      · exact h.handled
      · intro socket clientUuid' hnamed
        cases hnamed
  | @find c clientUuid hc =>
      have hmem := h.owned.mem (c := some c) (k := clientUuid)
        (by simp [State.owner, hc, Thread.owned])
      have howned : Thread.owned ⟨clientUuid, .starting⟩ =
          Thread.owned ⟨clientUuid, .waiting⟩ := rfl
      refine (h.setStage hc howned).same rfl rfl (fun clientUuid' => ?_) ?_
      · simp only [Std.TreeMap.mem_insertIfNew, Std.compare_eq_iff_eq, State.setStage]
        constructor
        · rintro (rfl | hmem')
          · exact hmem
          · exact hmem'
        · exact .inr
      · intro clientUuid' entry hentry
        rw [Std.TreeMap.getElem?_insertIfNew] at hentry
        split_ifs at hentry with hnew
        · obtain ⟨hsame, hnot⟩ := hnew
          exact absurd (Std.compare_eq_iff_eq.mp hsame ▸ hmem) hnot
        · exact h.handled _ _ hentry
  | read hc hentry _ =>
      exact (h.setEntry hentry _ (Option.some_ne_none _)).setStage hc rfl
  | @call c clientUuid injected request o next r managers hc _ =>
      have hstage := h.setStage hc
        (show _ = Thread.owned ⟨clientUuid, .handling injected request (next r)⟩ from rfl)
      exact hstage.same rfl rfl (fun _ => Iff.rfl) hstage.handled
  | returns hc hentry =>
      refine (h.setEntry hentry _ (Option.some_ne_none _)).setStage hc ?_
      split_ifs <;> rfl
  | respond hc hentry _ => exact (h.setEntry hentry _ (h.handled _ _ hentry)).setStage hc rfl
  | lose hc hentry _ => exact (h.setEntry hentry _ (h.handled _ _ hentry)).setStage hc rfl
  | inject hc _ => exact h.setStage hc rfl
  | drop hc => exact h.setStage hc rfl
  | close hc hentry => exact (h.setEntry hentry _ (h.handled _ _ hentry)).setStage hc rfl
  | @erase c clientUuid hc =>
      constructor
      · have hfree := h.owned.free (c := some c) (k := clientUuid)
          (by simp [State.owner, hc, Thread.owned]) fun _ => Iff.rfl
        refine hfree.congr (State.owner_move st c ⟨clientUuid, .finished⟩ rfl rfl)
          fun clientUuid' => ?_
        simp only [Std.TreeMap.mem_erase, ne_eq, Std.compare_eq_iff_eq,
          @eq_comm _ clientUuid]
      · intro clientUuid' entry hentry
        rw [Std.TreeMap.getElem?_erase] at hentry
        split_ifs at hentry
        exact h.handled _ _ hentry
      · intro socket clientUuid' hnamed
        rw [Std.TreeMap.mem_erase]
        exact fun hmem => h.fresh socket clientUuid' hnamed hmem.2

end Tidy

theorem Reachable.tidy (h : Reachable network P dump d st) : Tidy st := by
  obtain ⟨database, h⟩ := h
  induction h with
  | refl => exact .init database
  | tail _ hs ih =>
      obtain ⟨who, hs⟩ := hs
      exact ih.step hs

/-- A step changes the entry of the thread that makes it, or makes a new one. -/
theorem Tidy.touches (h : Tidy st) (hs : Step network P dump d st who st') {clientUuid : String}
    (hchange : st'.clients[clientUuid]? ≠ st.clients[clientUuid]?) :
    st.owner who = some clientUuid ∨ clientUuid ∉ st.clients := by
  have hthread : ∀ {c own stage}, st.threads c = some ⟨own, stage⟩ → stage ≠ .finished →
      own = clientUuid → st.owner (some c) = some clientUuid := by
    rintro c own stage hc hlive rfl
    exact State.owner_live hc hlive
  cases hs with
  | accept _ | generateUUID _ _ | spawn _ _ | call _ _ | inject _ _ | drop _ =>
      exact absurd rfl hchange
  | @enter _ own hacceptor =>
      refine .inr fun hmem => hchange ?_
      have hne : own ≠ clientUuid := by
        rintro rfl
        exact h.fresh _ _ hacceptor hmem
      simp [State.setEntry, Std.TreeMap.getElem?_insert, hne]
  | find hc =>
      refine .inr fun hmem => hchange ?_
      rw [Std.TreeMap.getElem?_insertIfNew, if_neg]
      rintro ⟨heq, hnot⟩
      exact hnot (Std.compare_eq_iff_eq.mp heq ▸ hmem)
  | read hc _ _ | returns hc _ | respond hc _ _ | lose hc _ _ | close hc _ =>
      refine .inl (hthread hc (by simp) ?_)
      by_contra hne
      refine hchange ?_
      simp [State.setStage, State.setEntry, Std.TreeMap.getElem?_insert, hne]
  | erase hc =>
      refine .inl (hthread hc (by simp) ?_)
      by_contra hne
      refine hchange ?_
      simp [Std.TreeMap.getElem?_erase, hne]

/-- No step touches the entry of another thread. -/
theorem Tidy.isolated (h : Tidy st) (hs : Step network P dump d st who st') {who' : Option ℕ}
    (hne : who' ≠ who) {clientUuid : String} (ho : st.owner who' = some clientUuid) :
    st'.clients[clientUuid]? = st.clients[clientUuid]? := by
  by_contra hchange
  rcases h.touches hs hchange with hown | hnew
  · exact hne (h.owned.unique _ _ _ ho hown)
  · exact hnew (h.owned.mem ho)

/-- In every reachable state the entries of `_clients` are those of the live threads and of the
accepting thread, one each and with a handler, and a step touches the entry of no other party. -/
theorem entries_owned (h : Reachable network P dump d st) :
    Tidy st ∧ ∀ who st', Step network P dump d st who st' → ∀ who' clientUuid, who' ≠ who →
      st.owner who' = some clientUuid →
      st'.clients[clientUuid]? = st.clients[clientUuid]? :=
  ⟨h.tidy, fun _ _ hs _ _ hne ho => h.tidy.isolated hs hne ho⟩

/-- A connection whose client sends one request. -/
def requestSocket (request : RequestInfo) : Pipe := { window := 64, incoming := request.frame }

/-- The connection when the request has been read. -/
def readSocket (request : RequestInfo) : Pipe := { window := 64, received := request.frame }

/-- Two connections, one of them in the middle of a login and the other about to be told that it
has to log in. -/
theorem two_reachable : ∃ (st : State Pipe) (login rooms : Action RequestResult),
    Reachable pipeNetwork lobbyPlatform (fun _ => []) true st ∧
      st.threads 0 = some ⟨"first", .handling false (lobbyRequest .loginRequest 0) login⟩ ∧
      st.threads 1 = some ⟨"second", .handling false ⟨.getRoomsRequest, [0]⟩ rooms⟩ := by
  have hlogin : SocketHelper.getRequestInfo pipeNetwork.toSocket
      (requestSocket (lobbyRequest .loginRequest 0)) =
      (.ok (lobbyRequest .loginRequest 0), readSocket (lobbyRequest .loginRequest 0)) := by
    rfl
  have hrooms : SocketHelper.getRequestInfo pipeNetwork.toSocket
      (requestSocket ⟨.getRoomsRequest, [0]⟩) =
      (.ok ⟨.getRoomsRequest, [0]⟩, readSocket ⟨.getRoomsRequest, [0]⟩) := rfl
  have hnew : ∀ request, pipeNetwork.accepts (requestSocket request) := fun _ => ⟨rfl, rfl⟩
  have hunused : "first" ∉ (∅ : Std.TreeMap String (Entry Pipe)) := by simp
  refine ⟨_, _, _, ⟨.empty, .tail (.tail (.tail (.tail (.tail (.tail (.tail (.tail (.tail (.tail
    (.tail (.tail .refl
    ⟨none, .accept rfl (hnew (lobbyRequest .loginRequest 0))⟩)
    ⟨none, .generateUUID rfl hunused⟩)
    ⟨none, .enter rfl⟩)
    ⟨none, .spawn (c := 0) rfl rfl⟩)
    ⟨some 0, .find rfl⟩)
    ⟨some 0, .read rfl rfl hlogin⟩)
    ⟨none, .accept rfl (hnew ⟨.getRoomsRequest, [0]⟩)⟩)
    ⟨none, .generateUUID rfl (show "second" ∉ _ by decide +kernel)⟩)
    ⟨none, .enter rfl⟩)
    ⟨none, .spawn (c := 1) rfl rfl⟩)
    ⟨some 1, .find rfl⟩)
    ⟨some 1, .read rfl rfl hrooms⟩⟩, rfl, rfl⟩

theorem entries_owned_first : ∃ (st : State Pipe) (login rooms : Action RequestResult),
    st.threads 0 = some ⟨"first", .handling false (lobbyRequest .loginRequest 0) login⟩ ∧
    st.threads 1 = some ⟨"second", .handling false ⟨.getRoomsRequest, [0]⟩ rooms⟩ ∧
    Tidy st ∧ ∀ who st', Step pipeNetwork lobbyPlatform (fun _ => []) true st who st' →
      ∀ who' clientUuid, who' ≠ who → st.owner who' = some clientUuid →
        st'.clients[clientUuid]? = st.clients[clientUuid]? := by
  obtain ⟨st, login, rooms, hreach, hfirst, hsecond⟩ := two_reachable
  exact ⟨st, login, rooms, hfirst, hsecond, entries_owned hreach⟩

/-! ## Going on -/

/-- Every operation has an answer or throws. -/
theorem step_or_fault (d : Bool) (o : Op) (s : Managers) :
    (∃ r s', (machine d).Step o s r s') ∨ ∃ fault, (machine d).Fault o s fault := by
  have hchoice : ∃ c, Op.admits d o c s = true := by
    cases o with
    | room o =>
        cases o with
        | generateRoomUUID =>
            obtain ⟨text, htext⟩ := Infinite.exists_notMem_finset s.rooms.keys.toFinset
            have hunused : s.rooms.contains text = false := by
              rw [← Bool.not_eq_true, Std.TreeMap.contains_iff_mem]
              simpa using htext
            exact ⟨{ text }, by simp [Op.admits, hunused]⟩
        | _ => exact ⟨usual, rfl⟩
    | database o => exact ⟨usual, by simp [Op.admits, usual]⟩
    | login o | game o | external o => exact ⟨usual, rfl⟩
  obtain ⟨c, hc⟩ := hchoice
  cases hx : o.exec c s with
  | error fault => exact .inr ⟨fault, c, hc, hx⟩
  | ok result => exact .inl ⟨result.1, result.2, c, hc, hx⟩

end Communicator

end TriviaServer
