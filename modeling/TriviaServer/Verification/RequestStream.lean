import TriviaServer.Model.SocketHelper

/-! # Requests that are cut off

A request is an id byte, four length bytes and a body. Which of the three can be read is
stated about `recv` alone, whatever it does; on a byte stream it is a matter of the bytes
left. -/

namespace TriviaServer

open SocketHelper

variable {σ : Type} (socket : Socket σ)

/-- The bytes of a read that delivers all it was asked for over a live connection. -/
def Socket.read (s : σ) (n : ℕ) : Option (List UInt8) :=
  match (socket.recv s n).1 with
  | some (bytes, status) =>
      if status ≠ .errored ∧ status ≠ .cleanlyDisconnected ∧ bytes.length = n then some bytes
      else none
  | none => none

def Socket.afterId (s : σ) : σ := (socket.recv s 1).2

def Socket.afterLength (s : σ) : σ := (socket.recv (socket.afterId s) 4).2

/-- The id byte arrives and is one of the recognised ones. -/
def IdReadable (s : σ) (id : RequestId) : Prop :=
  ∃ b, socket.read s 1 = some [b] ∧ RequestId.ofByte b = some id

def LengthReadable (s : σ) (length : UInt32) : Prop :=
  ∃ b₀ b₁ b₂ b₃, socket.read (socket.afterId s) 4 = some [b₀, b₁, b₂, b₃] ∧
    length = lengthOfBytes b₀ b₁ b₂ b₃

/-- The body that the length announces arrives. -/
def BodyReadable (s : σ) (body : List UInt8) : Prop :=
  ∃ length, LengthReadable socket s length ∧
    socket.read (socket.afterLength s) length.toNat = some body

/-! ## The three reads -/

theorem getPartFromSocket_ok (s : σ) (n : UInt32) (bytes : List UInt8) :
    (getPartFromSocket socket s n).1 = .ok bytes ↔ socket.read s n.toNat = some bytes := by
  unfold getPartFromSocket Socket.read
  rcases socket.recv s n.toNat with ⟨_ | ⟨received, status⟩, s'⟩
  · simp
  · by_cases he : status = .errored
    · simp [he]
    · by_cases hd : status = .cleanlyDisconnected
      · simp [hd]
      · by_cases hl : received.length = n.toNat <;> simp [he, hd, hl]

theorem getPartFromSocket_state (s : σ) (n : UInt32) :
    (getPartFromSocket socket s n).2 = (socket.recv s n.toNat).2 := by
  unfold getPartFromSocket
  rcases socket.recv s n.toNat with ⟨_ | ⟨received, status⟩, s'⟩
  · rfl
  · simp only
    split_ifs <;> rfl

theorem Socket.read_length {s : σ} {n : ℕ} {bytes : List UInt8}
    (h : socket.read s n = some bytes) : bytes.length = n := by
  unfold Socket.read at h
  rcases hr : socket.recv s n with ⟨_ | ⟨received, status⟩, s'⟩
  · simp [hr] at h
  · simp only [hr] at h
    split_ifs at h with hc
    cases h
    exact hc.2.2

theorem getRequestId_ok (s : σ) (id : RequestId) :
    (getRequestId socket s).1 = .ok id ↔ IdReadable socket s id := by
  unfold getRequestId IdReadable
  rcases hr : getPartFromSocket socket s 1 with ⟨e | bytes, s'⟩
  · have hnone : ∀ b, socket.read s 1 ≠ some [b] := by
      intro b hb
      have hok := (getPartFromSocket_ok socket s 1 [b]).mpr hb
      rw [hr] at hok
      cases hok
    simp [hnone]
  · have hread : socket.read s 1 = some bytes :=
      (getPartFromSocket_ok socket s 1 bytes).mp (by rw [hr])
    obtain ⟨b, rfl⟩ := List.length_eq_one_iff.mp (socket.read_length hread)
    cases hb : RequestId.ofByte b <;> simp [hread, hb]

theorem getRequestId_state (s : σ) : (getRequestId socket s).2 = socket.afterId s := by
  have h := getPartFromSocket_state socket s 1
  unfold getRequestId Socket.afterId
  rcases hr : getPartFromSocket socket s 1 with ⟨e | bytes, s'⟩
  · simpa [hr] using h
  · rw [hr] at h
    simp only
    split <;> exact h

theorem getRequestLength_ok (s : σ) (length : UInt32) :
    (getRequestLength socket (socket.afterId s)).1 = .ok length ↔
      LengthReadable socket s length := by
  unfold getRequestLength LengthReadable
  rcases hr : getPartFromSocket socket (socket.afterId s) 4 with ⟨e | bytes, s'⟩
  · have hnone : ∀ bytes, socket.read (socket.afterId s) 4 ≠ some bytes := by
      intro bytes hb
      have hok := (getPartFromSocket_ok socket (socket.afterId s) 4 bytes).mpr hb
      rw [hr] at hok
      cases hok
    simp [hnone]
  · have hread : socket.read (socket.afterId s) 4 = some bytes :=
      (getPartFromSocket_ok socket (socket.afterId s) 4 bytes).mp (by rw [hr])
    have hlen := socket.read_length hread
    obtain ⟨b₀, b₁, b₂, b₃, rfl⟩ : ∃ b₀ b₁ b₂ b₃, bytes = [b₀, b₁, b₂, b₃] := by
      match bytes, hlen with
      | [b₀, b₁, b₂, b₃], _ => exact ⟨b₀, b₁, b₂, b₃, rfl⟩
    simp only [hread, Except.ok.injEq, Option.some.injEq, List.cons.injEq, and_true]
    constructor
    · rintro rfl
      exact ⟨b₀, b₁, b₂, b₃, ⟨rfl, rfl, rfl, rfl⟩, rfl⟩
    · rintro ⟨_, _, _, _, ⟨rfl, rfl, rfl, rfl⟩, rfl⟩
      rfl

theorem getRequestLength_state (s : σ) :
    (getRequestLength socket (socket.afterId s)).2 = socket.afterLength s := by
  have h := getPartFromSocket_state socket (socket.afterId s) 4
  unfold getRequestLength Socket.afterLength
  rcases hr : getPartFromSocket socket (socket.afterId s) 4 with ⟨e | bytes, s'⟩
  · simpa [hr] using h
  · rw [hr] at h
    split <;> simp_all

/-! ## What becomes of a request -/

theorem getRequestInfo_unknown {s : σ} (h : ∀ id, ¬ IdReadable socket s id) :
    (getRequestInfo socket s).1 = .ok exitRequest := by
  unfold getRequestInfo
  cases hid : (getRequestId socket s).1 with
  | error e => simp [hid, errorOf, Except.map]
  | ok id => exact absurd ((getRequestId_ok socket s id).mp hid) (h id)

theorem getRequestInfo_whole {s : σ} {id : RequestId} {body : List UInt8}
    (hid : IdReadable socket s id) (hbody : BodyReadable socket s body) :
    (getRequestInfo socket s).1 = .ok ⟨id, body⟩ := by
  obtain ⟨length, hlength, hread⟩ := hbody
  have hid := (getRequestId_ok socket s id).mpr hid
  have hlength := (getRequestLength_ok socket s length).mpr hlength
  have hpart := (getPartFromSocket_ok socket (socket.afterLength s) length body).mpr hread
  simp [getRequestInfo, hid, getRequestId_state, hlength, getRequestLength_state, hpart]

/-- Once the id is read, the branches for a missing length or body ask `requestId`, which
holds a value, for its error. -/
theorem getRequestInfo_cut {s : σ} {id : RequestId} (hid : IdReadable socket s id)
    (hbody : ∀ body, ¬ BodyReadable socket s body) :
    (getRequestInfo socket s).1 = .error .badVariantAccess := by
  have hid := (getRequestId_ok socket s id).mpr hid
  unfold getRequestInfo
  simp only [hid, getRequestId_state]
  cases hl : (getRequestLength socket (socket.afterId s)).1 with
  | error e => simp [errorOf, Except.map]
  | ok length =>
      have hlength := (getRequestLength_ok socket s length).mp hl
      simp only [getRequestLength_state]
      cases hb : (getPartFromSocket socket (socket.afterLength s) length).1 with
      | error e => simp [errorOf, Except.map]
      | ok body =>
          have hread := (getPartFromSocket_ok socket (socket.afterLength s) length body).mp hb
          exact absurd ⟨length, hlength, hread⟩ (hbody body)

/-- An unreadable part becomes EXIT, and nothing is thrown. -/
def BrokenBecomesExit (s : σ) : Prop :=
  (∀ fault, (getRequestInfo socket s).1 ≠ .error fault) ∧
    ((¬ ∃ id body, IdReadable socket s id ∧ BodyReadable socket s body) →
      (getRequestInfo socket s).1 = .ok exitRequest)

theorem brokenBecomesExit_iff (s : σ) :
    BrokenBecomesExit socket s ↔
      (¬ ∃ id, IdReadable socket s id) ∨ ∃ body, BodyReadable socket s body := by
  by_cases hid : ∃ id, IdReadable socket s id
  · obtain ⟨id, hid⟩ := hid
    by_cases hbody : ∃ body, BodyReadable socket s body
    · obtain ⟨body, hbody⟩ := hbody
      have hwhole := getRequestInfo_whole socket hid hbody
      refine iff_of_true ⟨fun fault h => ?_, fun h => ?_⟩ (.inr ⟨body, hbody⟩)
      · rw [hwhole] at h
        cases h
      · exact absurd ⟨id, body, hid, hbody⟩ h
    · have hcut := getRequestInfo_cut socket hid (not_exists.mp hbody)
      refine iff_of_false (fun h => h.1 _ hcut) ?_
      rintro (h | h)
      · exact h ⟨id, hid⟩
      · exact hbody h
  · have hexit := getRequestInfo_unknown socket (not_exists.mp hid)
    refine iff_of_true ⟨fun fault h => ?_, fun _ => hexit⟩ (.inl hid)
    rw [hexit] at h
    cases h

/-! ## Byte streams -/

/-- What kissnet promises of a connection with these bytes left: a read they suffice for
takes the next ones, and no other read delivers what it was asked for. -/
structure Delivers (rest : σ → List UInt8) : Prop where
  enough : ∀ s n, 0 < n → n ≤ (rest s).length →
    ∃ s', socket.recv s n = (some ((rest s).take n, .valid), s') ∧ rest s' = (rest s).drop n
  short : ∀ s n, (rest s).length < n → socket.read s n = none

namespace Delivers

variable {socket} {rest : σ → List UInt8} (h : Delivers socket rest)

include h

theorem read_enough {s : σ} {n : ℕ} (hn : 0 < n) (hl : n ≤ (rest s).length) :
    socket.read s n = some ((rest s).take n) := by
  obtain ⟨s', hr, -⟩ := h.enough s n hn hl
  simp [Socket.read, hr, hl]

theorem rest_afterId {s : σ} {b : UInt8} {tail : List UInt8} (hs : rest s = b :: tail) :
    rest (socket.afterId s) = tail := by
  obtain ⟨s', hr, hrest⟩ := h.enough s 1 Nat.one_pos (by simp [hs])
  simp [Socket.afterId, hr, hrest, hs]

theorem rest_afterLength {s : σ} {b b₀ b₁ b₂ b₃ : UInt8} {tail : List UInt8}
    (hs : rest s = b :: b₀ :: b₁ :: b₂ :: b₃ :: tail) : rest (socket.afterLength s) = tail := by
  have hid := h.rest_afterId hs
  obtain ⟨s', hr, hrest⟩ := h.enough (socket.afterId s) 4 (by decide) (by simp [hid])
  simp [Socket.afterLength, hr, hrest, hid]

/-- Wherever a stream is cut off behind a recognised id byte, reading it throws. -/
theorem getRequestInfo_cut {s : σ} {b : UInt8} {id : RequestId} {tail : List UInt8}
    (hs : rest s = b :: tail) (hb : RequestId.ofByte b = some id)
    (hcut : tail.length < 4 ∨ ∃ b₀ b₁ b₂ b₃ body, tail = b₀ :: b₁ :: b₂ :: b₃ :: body ∧
      body.length < (lengthOfBytes b₀ b₁ b₂ b₃).toNat) :
    (getRequestInfo socket s).1 = .error .badVariantAccess := by
  have hid : IdReadable socket s id :=
    ⟨b, by simpa [hs] using h.read_enough (s := s) Nat.one_pos (by simp [hs]), hb⟩
  have hrest := h.rest_afterId hs
  refine TriviaServer.getRequestInfo_cut socket hid ?_
  rintro body ⟨length, ⟨b₀, b₁, b₂, b₃, hlength, rfl⟩, hbody⟩
  rcases hcut with hcut | ⟨c₀, c₁, c₂, c₃, cut, rfl, hcut⟩
  · rw [h.short _ _ (by rwa [hrest])] at hlength
    cases hlength
  · rw [h.read_enough (by decide) (by simp [hrest]), hrest] at hlength
    simp only [List.take_succ_cons, List.take_zero, Option.some.injEq, List.cons.injEq,
      and_true] at hlength
    obtain ⟨rfl, rfl, rfl, rfl⟩ := hlength
    rw [h.short _ _ (by rwa [h.rest_afterLength hs])] at hbody
    cases hbody

end Delivers

/-- A connection that holds the given bytes and whose peer then closes it. -/
def streamSocket : Socket (List UInt8) where
  recv stream n :=
    if 0 < n ∧ n ≤ stream.length then (some (stream.take n, .valid), stream.drop n)
    else (some ([], .cleanlyDisconnected), [])

theorem streamSocket_delivers : Delivers streamSocket id where
  enough s n hn hl := ⟨s.drop n, by simp [streamSocket, hn, show n ≤ s.length from hl], rfl⟩
  short s n hl := by
    have hn : ¬ n ≤ s.length := Nat.not_le.mpr hl
    simp [Socket.read, streamSocket, hn]

/-- A LOGIN whose length bytes are missing. -/
theorem not_brokenBecomesExit_cut : ¬ BrokenBecomesExit streamSocket [1] := by
  intro h
  exact h.1 .badVariantAccess (by decide)

end TriviaServer
