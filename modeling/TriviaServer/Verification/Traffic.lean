import TriviaServer.Model.Communicator
import TriviaServer.Verification.Framing

/-! # What goes through a socket

The bytes that a connection has delivered and taken are counted, whatever the network does. A
request that is read and is no EXIT has taken exactly its frame. Of a message that is sent the
network takes a part from its start, and nobody looks whether it is the whole message. -/

namespace TriviaServer

open SocketHelper

variable {σ : Type}

/-- `received` and `sent` list the bytes that went through a socket. A send takes a part of the
message from its start, and if its status tells of no error it yields how much that was. -/
structure Network.Counts (network : Network σ) (received sent : σ → List UInt8) : Prop where
  accepts : ∀ s, network.accepts s → received s = [] ∧ sent s = []
  recv : ∀ s n, ∃ taken, received (network.recv s n).2 = received s ++ taken ∧
    sent (network.recv s n).2 = sent s ∧
    ∀ bytes status, (network.recv s n).1 = some (bytes, status) → taken = bytes
  send : ∀ s message, ∃ taken, sent (network.send s message).2 = sent s ++ taken ∧
    received (network.send s message).2 = received s ∧ taken <+: message ∧
    ((network.send s message).1.2 ≠ .errored →
      (network.send s message).1.2 ≠ .cleanlyDisconnected →
        (network.send s message).1.1 = taken.length)
  close : ∀ s, received (network.close s) = received s ∧ sent (network.close s) = sent s

/-- A network that takes every message whole, if it tells of no error. -/
def Network.SendsWhole (network : Network σ) : Prop :=
  ∀ s message, (network.send s message).1.2 ≠ .errored →
    (network.send s message).1.2 ≠ .cleanlyDisconnected →
      (network.send s message).1.1 = message.length

/-- What a send without an error may take of a message. -/
def Network.Takes (network : Network σ) (part message : List UInt8) : Prop :=
  part <+: message ∧ (network.SendsWhole → part = message)

/-- Bytes that sends without an error take of messages, one after the other. -/
def Network.Wrote (network : Network σ) (messages : List (List UInt8)) (bytes : List UInt8) :
    Prop :=
  ∃ parts, List.Forall₂ network.Takes parts messages ∧ bytes = parts.flatten

namespace Network.Wrote

variable {network : Network σ} {messages : List (List UInt8)} {bytes : List UInt8}

theorem nil : network.Wrote [] [] := ⟨[], .nil, rfl⟩

theorem snoc (h : network.Wrote messages bytes) {part message : List UInt8}
    (hpart : network.Takes part message) :
    network.Wrote (messages ++ [message]) (bytes ++ part) := by
  obtain ⟨parts, hparts, rfl⟩ := h
  exact ⟨parts ++ [part], List.rel_append hparts (.cons hpart .nil), by simp⟩

/-- A network that takes every message whole loses nothing. -/
theorem whole (h : network.Wrote messages bytes) (hwhole : network.SendsWhole) :
    bytes = messages.flatten := by
  obtain ⟨parts, hparts, rfl⟩ := h
  congr 1
  induction hparts with
  | nil => rfl
  | cons hfirst _ ih => rw [hfirst.2 hwhole, ih]

end Network.Wrote

theorem bigEndian_lengthOfBytes (b₀ b₁ b₂ b₃ : UInt8) :
    bigEndian (lengthOfBytes b₀ b₁ b₂ b₃).toNat = [b₀, b₁, b₂, b₃] := by
  have h₀ := b₀.toNat_lt
  have h₁ := b₁.toNat_lt
  have h₂ := b₂.toNat_lt
  have h₃ := b₃.toNat_lt
  have hbyte : ∀ (n : ℕ) (b : UInt8), n % 2 ^ 8 = b.toNat → UInt8.ofNat n = b := by
    intro n b hn
    apply UInt8.toNat_inj.mp
    rw [UInt8.toNat_ofNat', hn]
  rw [lengthOfBytes_toNat, bigEndian]
  congr
  · exact hbyte _ _ (by omega)
  · exact hbyte _ _ (by omega)
  · exact hbyte _ _ (by omega)
  · exact hbyte _ _ (by omega)

theorem RequestId.toByte_of_ofByte {b : UInt8} {id : RequestId} (h : RequestId.ofByte b = some id) :
    id.toByte = b := by
  simpa using List.find?_some h

namespace Network.Counts

variable {network : Network σ} {received sent : σ → List UInt8}
variable (h : network.Counts received sent)

include h

/-- A read that delivers what it was asked for takes what it delivers. -/
theorem read {s : σ} {n : ℕ} {bytes : List UInt8}
    (hread : network.toSocket.read s n = some bytes) :
    received (network.recv s n).2 = received s ++ bytes := by
  obtain ⟨taken, hreceived, -, htaken⟩ := h.recv s n
  unfold Socket.read at hread
  cases hr : (network.recv s n).1 with
  | none => simp [hr] at hread
  | some r =>
      obtain ⟨delivered, status⟩ := r
      simp only [hr] at hread
      split_ifs at hread
      cases hread
      rw [hreceived, htaken _ _ hr]

theorem grows (s : σ) (n : ℕ) : received s <+: received (network.recv s n).2 := by
  obtain ⟨taken, hreceived, -⟩ := h.recv s n
  exact ⟨taken, hreceived.symm⟩

theorem quiet (s : σ) (n : ℕ) : sent (network.recv s n).2 = sent s := by
  obtain ⟨_, _, hsent, _⟩ := h.recv s n
  exact hsent

/-- A request that is read is an EXIT, or it was a whole frame. -/
theorem getRequestInfo {s s' : σ} {request : RequestInfo}
    (hr : SocketHelper.getRequestInfo network.toSocket s = (.ok request, s')) :
    received s <+: received s' ∧ sent s' = sent s ∧
      (request.requestId ≠ .exit → received s' = received s ++ request.frame) := by
  unfold SocketHelper.getRequestInfo at hr
  cases hid : (getRequestId network.toSocket s).1 with
  | error e =>
      simp only [hid, errorOf, Except.map, Prod.mk.injEq, Except.ok.injEq,
        getRequestId_state] at hr
      obtain ⟨rfl, rfl⟩ := hr
      exact ⟨h.grows s 1, h.quiet s 1, fun hne => absurd rfl hne⟩
  | ok id =>
      simp only [hid, getRequestId_state] at hr
      cases hlength : (getRequestLength network.toSocket (network.afterId s)).1 with
      | error e => simp [hlength, errorOf, Except.map] at hr
      | ok length =>
          simp only [hlength, getRequestLength_state] at hr
          cases hbody : (getPartFromSocket network.toSocket (network.afterLength s) length).1 with
          | error e => simp [hbody, errorOf, Except.map] at hr
          | ok body =>
              simp only [hbody, Prod.mk.injEq, Except.ok.injEq, getPartFromSocket_state] at hr
              obtain ⟨rfl, rfl⟩ := hr
              obtain ⟨b, hb, hbid⟩ := (getRequestId_ok _ _ _).mp hid
              obtain ⟨b₀, b₁, b₂, b₃, hbytes, rfl⟩ := (getRequestLength_ok _ _ _).mp hlength
              have hread := (getPartFromSocket_ok _ _ _ _).mp hbody
              have hlen := Socket.read_length _ hread
              have hframe : received (network.recv (network.afterLength s)
                  (lengthOfBytes b₀ b₁ b₂ b₃).toNat).2 =
                  received s ++ (⟨id, body⟩ : RequestInfo).frame := by
                rw [h.read hread, Socket.afterLength, h.read hbytes, Socket.afterId, h.read hb,
                  RequestInfo.frame, hlen, bigEndian_lengthOfBytes,
                  RequestId.toByte_of_ofByte hbid]
                simp
              refine ⟨⟨_, hframe.symm⟩, ?_, fun _ => hframe⟩
              rw [h.quiet, Socket.afterLength, h.quiet, Socket.afterId, h.quiet]

theorem sendData {s s' : σ} {message : List UInt8} {e : Option Error}
    (hs : SocketHelper.sendData network s message = (e, s')) :
    received s' = received s ∧ ∃ part, part <+: message ∧ sent s' = sent s ++ part ∧
      (e = none → network.Takes part message) := by
  obtain ⟨taken, hsent, hreceived, hpart, hcount⟩ := h.send s message
  unfold SocketHelper.sendData at hs
  rcases hr : network.send s message with ⟨⟨size, status⟩, s''⟩
  simp only [hr] at hs hsent hreceived hcount
  split_ifs at hs with herrored hdisconnected
  · cases hs
    exact ⟨hreceived, taken, hpart, hsent, by simp⟩
  · cases hs
    exact ⟨hreceived, taken, hpart, hsent, by simp⟩
  · cases hs
    refine ⟨hreceived, taken, hpart, hsent, fun _ => ⟨hpart, fun hwhole => ?_⟩⟩
    have hsize : size = message.length := by
      have := hwhole s message
      rw [hr] at this
      exact this herrored hdisconnected
    exact hpart.eq_of_length ((hcount herrored hdisconnected).symm.trans hsize)

end Network.Counts

/-- A connection that delivers the bytes it holds and takes as many at once as its window has
room for. -/
structure Pipe where
  window : ℕ
  incoming : List UInt8 := []
  received : List UInt8 := []
  sent : List UInt8 := []
  deriving DecidableEq

def pipeNetwork : Network Pipe where
  accepts s := s.received = [] ∧ s.sent = []
  recv s n :=
    if 0 < n ∧ n ≤ s.incoming.length then
      (some (s.incoming.take n, .valid),
        { s with incoming := s.incoming.drop n, received := s.received ++ s.incoming.take n })
    else (some ([], .cleanlyDisconnected), s)
  send s message :=
    (((message.take s.window).length, .valid),
      { s with sent := s.sent ++ message.take s.window })
  close s := s
  unconnected := { window := 0 }

theorem pipeNetwork_counts : pipeNetwork.Counts Pipe.received Pipe.sent where
  accepts _ h := h
  recv := by
    intro s n
    by_cases hn : 0 < n ∧ n ≤ s.incoming.length
    · exact ⟨s.incoming.take n, by simp [pipeNetwork, hn], by simp [pipeNetwork, hn],
        by simp [pipeNetwork, hn]⟩
    · exact ⟨[], by simp [pipeNetwork, hn], by simp [pipeNetwork, hn],
        by simp [pipeNetwork, hn]⟩
  send s message :=
    ⟨message.take s.window, rfl, rfl, List.take_prefix .., fun _ _ => rfl⟩
  close _ := ⟨rfl, rfl⟩

end TriviaServer
