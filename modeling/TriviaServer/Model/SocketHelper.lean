import TriviaServer.Model.Server

/-! # Reading a request from a socket

A kissnet socket is a parameter: any state with any `recv`. The functions return what they
return together with the socket afterwards; only `getRequestInfo` can throw, since
`getPartFromSocket` catches. -/

namespace TriviaServer

/-- `kissnet::socket_status`. -/
inductive SocketStatus where
  | errored | valid | cleanlyDisconnected | nonBlockingWouldHaveBlocked | timedOut
  deriving DecidableEq

/-- `recv` asks for a number of bytes and yields those it wrote with a status; `none` is an
exception. -/
structure Socket (σ : Type) where
  recv : σ → ℕ → Option (List UInt8 × SocketStatus) × σ

/-- The identifiers in the order of the enumeration. -/
def RequestId.all : List RequestId :=
  [.loginRequest, .signupRequest, .logoutRequest, .getRoomsRequest, .getPlayersInRoomRequest,
    .getHighscoresRequest, .getPersonalStatsRequest, .createRoomRequest, .joinRoomRequest,
    .getUserDataRequest, .updateUserDataRequest, .closeRoomRequest, .startGameRequest,
    .getRoomStateRequest, .leaveRoomRequest, .leaveGameRequest, .getQuestionRequest,
    .submitAnswerRequest, .getGameResultsRequest, .submitVerificationCodeRequest,
    .resendVerificationCodeRequest, .forgotPasswordRequest, .exit]

/-- The `switch` of `getRequestId`. -/
def RequestId.ofByte (b : UInt8) : Option RequestId := RequestId.all.find? (·.toByte = b)

/-- `Result::error()`: `std::get` throws when the result holds a value. -/
def errorOf {α : Type} : Result α → Except Fault Error
  | .error e => .ok e
  | .ok _ => .error .badVariantAccess

namespace SocketHelper

variable {σ : Type} (socket : Socket σ)

def getPartFromSocket (s : σ) (bytesToRead : UInt32) : Result (List UInt8) × σ :=
  match socket.recv s bytesToRead.toNat with
  | (none, s') => (.error ⟨"Error receiving from socket.", .socket⟩, s')
  | (some (bytes, status), s') =>
      if status = .errored then
        (.error (.ofType .socket), s')
      else if status = .cleanlyDisconnected then
        (.error (.ofType .disconnectedClient), s')
      else if bytes.length ≠ bytesToRead.toNat then
        (.error ⟨"Invalid request length", .invalidRequest⟩, s')
      else
        (.ok bytes, s')

def getRequestId (s : σ) : Result RequestId × σ :=
  match getPartFromSocket socket s 1 with
  | (.error e, s') => (.error e, s')
  | (.ok bytes, s') =>
      match RequestId.ofByte (bytes.headD 0) with
      | some requestId => (.ok requestId, s')
      | none => (.error ⟨"Invalid request ID.", .invalidRequest⟩, s')

/-- Big endian. -/
def lengthOfBytes (b₀ b₁ b₂ b₃ : UInt8) : UInt32 :=
  b₀.toUInt32 <<< 24 ||| b₁.toUInt32 <<< 16 ||| b₂.toUInt32 <<< 8 ||| b₃.toUInt32

def getRequestLength (s : σ) : Result UInt32 × σ :=
  match getPartFromSocket socket s 4 with
  | (.error e, s') => (.error e, s')
  | (.ok [b₀, b₁, b₂, b₃], s') => (.ok (lengthOfBytes b₀ b₁ b₂ b₃), s')
  | (.ok _, s') => (.error ⟨"Invalid request size header.", .invalidRequest⟩, s')

/-- Each failed part is logged with the message of `requestId.error()`, also where it is the
length or the body that failed and `requestId` holds a value. -/
def getRequestInfo (s : σ) : Except Fault RequestInfo × σ :=
  let (requestId, s) := getRequestId socket s
  match requestId with
  | .error _ => ((errorOf requestId).map fun _ => exitRequest, s)
  | .ok id =>
      let (requestLength, s) := getRequestLength socket s
      match requestLength with
      | .error _ => ((errorOf requestId).map fun _ => exitRequest, s)
      | .ok length =>
          let (buffer, s) := getPartFromSocket socket s length
          match buffer with
          | .error _ => ((errorOf requestId).map fun _ => exitRequest, s)
          | .ok buffer => (.ok ⟨id, buffer⟩, s)

end SocketHelper

end TriviaServer
