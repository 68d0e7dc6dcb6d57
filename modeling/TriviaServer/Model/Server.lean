import TriviaServer.Interaction.Service
import TriviaServer.Model.Handlers

/-! # The server: one thread per connection

`Communicator::handleClient` reads a request, runs the handler, and sends the buffer. A send
that fails makes the current handler take one more request, an EXIT, and the thread ends
after any EXIT. -/

namespace TriviaServer

open Interaction

/-- A connection between two calls of its handler. -/
inductive Session where
  /-- The next request comes from the socket. -/
  | waiting (handler : Handler)
  /-- The last send failed; the EXIT that the loop injects is next. -/
  | disconnected (handler : Handler)
  deriving DecidableEq, Repr

def Session.handler : Session → Handler
  | .waiting h => h
  | .disconnected h => h

/-- The request injected after a failed send, which is also what an unreadable one becomes. -/
def exitRequest : RequestInfo := ⟨.exit, []⟩

/-- The loop of `handleClient`. `sent` is whether the send succeeded. -/
def handleClient (P : Platform) :
    Service operations Session RequestInfo RequestResult Bool where
  initial := .waiting RequestHandlerFactory.createLoginRequestHandler
  admits
    | .waiting _, _ => true
    | .disconnected _, request => request = exitRequest
  serve session request := session.handler.handleRequest P request
  next request result sent :=
    if request.requestId = .exit then none
    else if sent then some (.waiting result.handler)
    else some (.disconnected result.handler)

/-- Connections are numbered. -/
abbrev ServerConfig : Type :=
  Config operations Managers ℕ Session RequestInfo RequestResult

/-- The managers when the server starts on a database. -/
def Managers.init (database : Database) : Managers := { database }

/-- No connection, no room and no game, and a database from an earlier run. -/
def ServerConfig.init (database : Database) : ServerConfig :=
  Service.start (.init database)

/-- A step of a run in which every request is one atomic step. -/
abbrev AtomicServerLabel : Type := Service.AtomicLabel operations ℕ RequestInfo Bool

/-- Runs of the server, from its start on some database, in which each request is one atomic
step and no database call throws; `K` is a condition on every step. -/
def AtomicRun (P : Platform) (K : ServerConfig → AtomicServerLabel → Prop)
    (cfg : ServerConfig) : Prop :=
  ∃ database, Service.AtomicReachable (handleClient P) (machine true) K
    (ServerConfig.init database) cfg

/-- Runs of the server in which the connections' operations interleave. -/
def InterleavedRun (P : Platform) (dbSucceeds : Bool) (cfg : ServerConfig) : Prop :=
  ∃ database, Service.Reachable (handleClient P) (machine dbSucceeds) (fun _ _ => True)
    (ServerConfig.init database) cfg

end TriviaServer
