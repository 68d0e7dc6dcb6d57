import Mathlib.Logic.Function.Basic
import TriviaServer.Model.JsonSerializer
import TriviaServer.Model.SocketHelper

/-! # The communicator

One thread accepts connections and starts a thread for each. The threads share the managers
and the map `_clients`, and each locked section of `_clientsMutex` is one step. A thread keeps
references into the map, which are represented by the client's uuid. -/

namespace TriviaServer

open Interaction RequestHandlerFactory

/-- What else the communicator uses of kissnet: `send` yields the number of bytes it wrote and
a status. -/
structure Network (σ : Type) extends Socket σ where
  /-- The sockets that `accept` can return. -/
  accepts : σ → Prop
  send : σ → List UInt8 → (ℕ × SocketStatus) × σ
  close : σ → σ
  /-- A default-constructed socket. -/
  unconnected : σ

/-- The number of bytes written is not looked at. -/
def SocketHelper.sendData {σ : Type} (network : Network σ) (s : σ) (message : List UInt8) :
    Option Error × σ :=
  match network.send s message with
  | ((_, status), s') =>
      if status = .errored then
        (some (.ofType .socket), s')
      else if status = .cleanlyDisconnected then
        (some (.ofType .disconnectedClient), s')
      else
        (none, s')

namespace Communicator

/-- A value of the map `_clients`; `none` is a null `unique_ptr`. -/
structure Entry (σ : Type) where
  socket : σ
  handler : Option Handler

/-- Where the loop of `startHandleRequests` is. -/
inductive Acceptor (σ : Type) where
  | accepting
  | accepted (socket : σ)
  | named (socket : σ) (clientUuid : String)
  | entered (clientUuid : String)

/-- Where a thread is in `handleClient`. -/
inductive Stage where
  /-- The references into the map are not taken yet. -/
  | starting
  | waiting
  /-- In `handleRequest`; `injected` marks the EXIT that follows a failed send. -/
  | handling (injected : Bool) (request : RequestInfo) (p : Action RequestResult)
  | responding (request : RequestInfo) (result : RequestResult)
  /-- The send failed. -/
  | lost
  | closing
  | closed
  | finished

structure Thread where
  clientUuid : String
  stage : Stage

/-- The threads are numbered. -/
structure State (σ : Type) where
  managers : Managers
  acceptor : Acceptor σ := .accepting
  clients : Std.TreeMap String (Entry σ) := ∅
  threads : ℕ → Option Thread := fun _ => none

namespace State

variable {σ : Type} (st : State σ)

def setStage (c : ℕ) (clientUuid : String) (stage : Stage) : State σ :=
  { st with threads := Function.update st.threads c (some ⟨clientUuid, stage⟩) }

def setEntry (clientUuid : String) (entry : Entry σ) : State σ :=
  { st with clients := st.clients.insert clientUuid entry }

end State

variable {σ : Type} (network : Network σ) (P : Platform) (dump : Json → List UInt8)
variable (dbSucceeds : Bool)

/-- A step of the accepting thread (`none`) or of a client's thread. An exception that leaves
a thread ends the process, so there is no step where the code throws. -/
inductive Step : State σ → Option ℕ → State σ → Prop where
  | accept {st socket} : st.acceptor = .accepting → network.accepts socket →
      Step st none { st with acceptor := .accepted socket }
  /-- `generateUUID` loops until the uuid is unused. -/
  | generateUUID {st socket clientUuid} : st.acceptor = .accepted socket →
      clientUuid ∉ st.clients → Step st none { st with acceptor := .named socket clientUuid }
  | enter {st socket clientUuid} : st.acceptor = .named socket clientUuid →
      Step st none { st.setEntry clientUuid ⟨socket, some createLoginRequestHandler⟩ with
        acceptor := .entered clientUuid }
  | spawn {st clientUuid c} : st.acceptor = .entered clientUuid → st.threads c = none →
      Step st none { st.setStage c clientUuid .starting with acceptor := .accepting }
  /-- `_clients[client_uuid]` inserts a default value where there is none. -/
  | find {st c clientUuid} : st.threads c = some ⟨clientUuid, .starting⟩ →
      Step st (some c)
        { st.setStage c clientUuid .waiting with
          clients := st.clients.insertIfNew clientUuid ⟨network.unconnected, none⟩ }
  | read {st c clientUuid socket handler request socket'} :
      st.threads c = some ⟨clientUuid, .waiting⟩ →
      st.clients[clientUuid]? = some ⟨socket, some handler⟩ →
      SocketHelper.getRequestInfo network.toSocket socket = (.ok request, socket') →
      Step st (some c) ((st.setEntry clientUuid ⟨socket', some handler⟩).setStage c clientUuid
        (.handling false request (handler.handleRequest P request)))
  | call {st c clientUuid injected request o next r managers} :
      st.threads c = some ⟨clientUuid, .handling injected request (.perform o next)⟩ →
      (machine dbSucceeds).Step o st.managers r managers →
      Step st (some c)
        { st.setStage c clientUuid (.handling injected request (next r)) with managers }
  /-- The handler is replaced, and only an EXIT is not answered. -/
  | returns {st c clientUuid socket handler request result} :
      st.threads c = some ⟨clientUuid, .handling false request (.pure result)⟩ →
      st.clients[clientUuid]? = some ⟨socket, handler⟩ →
      Step st (some c) ((st.setEntry clientUuid ⟨socket, some result.handler⟩).setStage c
        clientUuid (if request.requestId = .exit then .closing else .responding request result))
  | respond {st c clientUuid socket handler request result socket'} :
      st.threads c = some ⟨clientUuid, .responding request result⟩ →
      st.clients[clientUuid]? = some ⟨socket, handler⟩ →
      SocketHelper.sendData network socket (result.bytes dump) = (none, socket') →
      Step st (some c)
        ((st.setEntry clientUuid ⟨socket', handler⟩).setStage c clientUuid .waiting)
  | lose {st c clientUuid socket handler request result e socket'} :
      st.threads c = some ⟨clientUuid, .responding request result⟩ →
      st.clients[clientUuid]? = some ⟨socket, handler⟩ →
      SocketHelper.sendData network socket (result.bytes dump) = (some e, socket') →
      Step st (some c) ((st.setEntry clientUuid ⟨socket', handler⟩).setStage c clientUuid .lost)
  | inject {st c clientUuid socket handler} :
      st.threads c = some ⟨clientUuid, .lost⟩ →
      st.clients[clientUuid]? = some ⟨socket, some handler⟩ →
      Step st (some c) (st.setStage c clientUuid
        (.handling true exitRequest (handler.handleRequest P exitRequest)))
  /-- The result of the injected EXIT is dropped. -/
  | drop {st c clientUuid request result} :
      st.threads c = some ⟨clientUuid, .handling true request (.pure result)⟩ →
      Step st (some c) (st.setStage c clientUuid .closing)
  | close {st c clientUuid socket handler} : st.threads c = some ⟨clientUuid, .closing⟩ →
      st.clients[clientUuid]? = some ⟨socket, handler⟩ →
      Step st (some c)
        ((st.setEntry clientUuid ⟨network.close socket, handler⟩).setStage c clientUuid .closed)
  | erase {st c clientUuid} : st.threads c = some ⟨clientUuid, .closed⟩ →
      Step st (some c)
        { st.setStage c clientUuid .finished with clients := st.clients.erase clientUuid }

/-- The server on a database, before its first connection. -/
def State.init (database : Database) : State σ := { managers := .init database }

/-- The states that the server can get into, from its start on some database. -/
def Reachable (st : State σ) : Prop :=
  ∃ database, Relation.ReflTransGen (fun a b => ∃ c, Step network P dump dbSucceeds a c b)
    (.init database) st

end Communicator

end TriviaServer
