import Mathlib.Data.List.AList

namespace Pane.Messages

abbrev Bytes := List UInt8

/-- Server-assigned identity of a connection. -/
structure ConnectionId where
  id : UInt64
deriving DecidableEq, Repr

/-- Looper-side scope of a dispatch entry; the server never sees it. -/
structure PeerScope where
  scope : UInt64
deriving DecidableEq, Repr

/-- Request token, a `u64` in the source. A correlator counts its tokens up from 0, so
natural numbers stand for them while it has handed out at most `2 ^ 64`. -/
abbrev Token := Nat

/-- Sixteen bytes. The human-readable name of a service does not travel. -/
abbrev Uuid := {bytes : List UInt8 // bytes.length = 16}

instance : LawfulBEq Uuid := inferInstance

def Uuid.replicate (byte : UInt8) : Uuid := ⟨List.replicate 16 byte, List.length_replicate⟩

/-- The one-byte protocol tag of a service: its uuid folded with XOR. -/
def tag (service : Uuid) : UInt8 :=
  service.1.foldl (fun acc b => acc ^^^ b) 0

structure Address where
  paneId : UInt64
  serverId : UInt64
deriving DecidableEq, Repr

/-- Address a pane on the local server. -/
def Address.local (paneId : UInt64) : Address := ⟨paneId, 0⟩

inductive ExitReason
  | graceful
  | disconnected
  | failed
  | infraError
deriving DecidableEq, Repr

/-- What a handler method tells the looper to do next. -/
inductive Flow
  | cont
  | stop
deriving DecidableEq, Repr

inductive LifecycleMessage
  | ready
  | closeRequested
  | disconnected
  | pulse
  | paneExited (address : Address) (reason : ExitReason)
deriving DecidableEq, Repr

inductive DeclineReason
  | versionMismatch
  | serviceUnknown
  | selfProvide
  | sessionExhausted
deriving DecidableEq, Repr

inductive TeardownReason
  | serviceRevoked
  | connectionLost
deriving DecidableEq, Repr

/-- The envelope of wire service 0. -/
inductive ControlMessage
  | lifecycle (msg : LifecycleMessage)
  | declareInterest (service : Uuid) (expectedVersion : UInt32)
  | interestAccepted (serviceUuid : Uuid) (sessionId : UInt16) (version : UInt32)
  | interestDeclined (serviceUuid : Uuid) (reason : DeclineReason)
  | serviceTeardown (sessionId : UInt16) (reason : TeardownReason)
  | revokeInterest (sessionId : UInt16)
  | cancel (token : Token)
  | watch (target : Address)
  | unwatch (target : Address)
  | paneExited (address : Address) (reason : ExitReason)
deriving DecidableEq, Repr

/-- The envelope of every other wire service. -/
inductive ServiceFrame
  | request (token : Token) (payload : Bytes)
  | reply (token : Token) (payload : Bytes)
  | failed (token : Token)
  | notification (payload : Bytes)
deriving DecidableEq, Repr

/-- The serialization library, at the two message types that cross the wire. -/
structure Postcard where
  controlFromBytes : Bytes → Option ControlMessage
  controlToAllocvec : ControlMessage → Option Bytes
  frameFromBytes : Bytes → Option ServiceFrame
  frameToAllocvec : ServiceFrame → Option Bytes

namespace Postcard

/-- Every control message serializes, and its bytes decode to it again. -/
def ControlRoundTrip (pc : Postcard) : Prop :=
  ∀ m, ∃ b, pc.controlToAllocvec m = some b ∧ pc.controlFromBytes b = some m

/-- Every service frame serializes, and its bytes decode to it again. -/
def FrameRoundTrip (pc : Postcard) : Prop :=
  ∀ f, ∃ b, pc.frameToAllocvec f = some b ∧ pc.frameFromBytes b = some f

end Postcard

end Pane.Messages
