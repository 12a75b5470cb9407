import Pane.ServerActor
import Pane.Setup
import Pane.Streams

namespace Pane.Handshake

open Pane.Messages Pane.Serialization Pane.Framing Pane.Setup Pane.ConnectionSource Pane.Links
open Pane.Streams

structure ServiceInterest where
  service : ServiceId
  expectedVersion : UInt32
deriving DecidableEq

/-- The opening message of a client. -/
structure Hello where
  version : UInt32
  maxMessageSize : UInt32
  maxOutstandingRequests : UInt16
  interests : List ServiceInterest
  provides : List ServiceProvision
deriving DecidableEq

structure ServiceBinding where
  service : ServiceId
  sessionId : UInt8
  version : UInt32
deriving DecidableEq

structure Welcome where
  version : UInt32
  instanceId : String
  maxMessageSize : UInt32
  maxOutstandingRequests : UInt16
  bindings : List ServiceBinding
deriving DecidableEq

inductive RejectReason
  | versionMismatch
  | unauthorized
  | serverFull
  | serviceUnavailable
deriving DecidableEq

structure Rejection where
  reason : RejectReason
  message : Option String
deriving DecidableEq

/-- The answer to a Hello. -/
inductive Decision
  | ok (welcome : Welcome)
  | err (rejection : Rejection)
deriving DecidableEq

/-- A service on the other side of the wire: only its UUID travels. -/
def received (service : ServiceId) : ServiceId := { service with name := "<unknown>" }

def Hello.received (hello : Hello) : Hello :=
  { hello with
    interests := hello.interests.map fun i => { i with service := Handshake.received i.service }
    provides := hello.provides.map fun p => { p with service := Handshake.received p.service } }

def Decision.received : Decision → Decision
  | .ok welcome => .ok { welcome with
      bindings := welcome.bindings.map fun b => { b with service := Handshake.received b.service } }
  | .err rejection => .err rejection

def Hello.registered (hello : Hello) : ServerActor.Hello :=
  ⟨hello.provides.map fun p => p.service.uuid⟩

/-- `ciborium`, which writes and reads the messages of the handshake. -/
structure Cbor where
  helloIntoWriter : Hello → Except String Bytes
  helloFromReader : Bytes → Except String Hello
  decisionIntoWriter : Decision → Except String Bytes
  decisionFromReader : Bytes → Except String Decision

structure Cbor.RoundTrip (cbor : Cbor) : Prop where
  hello : ∀ {hello bytes}, cbor.helloIntoWriter hello = .ok bytes →
    cbor.helloFromReader bytes = .ok hello.received
  decision : ∀ {decision bytes}, cbor.decisionIntoWriter decision = .ok bytes →
    cbor.decisionFromReader bytes = .ok decision.received

def hexDigits (service : UInt16) : String :=
  let digits := (Nat.toDigits 16 service.toNat).map Char.toUpper
  String.ofList (List.replicate (4 - digits.length) '0' ++ digits)

/-- `Display` of a `FrameError`. -/
def display : FrameError → String
  | .oversized declared limit =>
    "frame too large: " ++ toString declared.toNat ++ " bytes (limit " ++ toString limit.toNat ++ ")"
  | .unknownService service => "unknown service discriminant: 0x" ++ hexDigits service
  | .transport error => "transport error: " ++ error.text
  | .tooShort declared =>
    "frame too short: declared length " ++ toString declared.toNat ++ ", minimum is 2"
  | .poisoned => "codec poisoned by prior error"

/-- The `std::io::Error`s of the handshake: one of the transport, or one that is
made here, of the kind `ConnectionAborted` or `InvalidData`. -/
inductive HandshakeError
  | io (error : IoError)
  | connectionAborted (text : String)
  | invalidData (text : String)
deriving DecidableEq

inductive ConnectError
  | transport (error : HandshakeError)
  | rejected (rejection : Rejection)
deriving DecidableEq

inductive AcceptError
  | transport (error : HandshakeError)
  | rejected (reason : RejectReason)
deriving DecidableEq

/-- `HANDSHAKE_MAX_MESSAGE_SIZE`. -/
def handshakeMaxMessageSize : UInt32 := 16 * 1024 * 1024

/-- The payload of the one frame that a side reads. -/
def payloadOf (aborted : String) : Except FrameError Frame → Except HandshakeError Bytes
  | .error e => .error (.connectionAborted (display e))
  | .ok .abort => .error (.connectionAborted aborted)
  | .ok (.message service payload) =>
    if service = 0 then .ok payload else .error (.invalidData "unexpected frame during handshake")

variable (cbor : Cbor)

/-- What `accept` makes of the first frame. -/
def readHello (frame : Except FrameError Frame) : Except AcceptError Hello :=
  match payloadOf "client sent ProtocolAbort" frame with
  | .error e => .error (.transport e)
  | .ok payload =>
    match cbor.helloFromReader payload with
    | .error text => .error (.transport (.invalidData text))
    | .ok hello => .ok hello

/-- What `run_client_bridge` and `connect_unix` make of the answer. -/
def readDecision (frame : Except FrameError Frame) : Except ConnectError Welcome :=
  match payloadOf "server sent ProtocolAbort" frame with
  | .error e => .error (.transport e)
  | .ok payload =>
    match cbor.decisionFromReader payload with
    | .error text => .error (.transport (.invalidData text))
    | .ok (.ok welcome) => .ok welcome
    | .ok (.err rejection) => .error (.rejected rejection)

def rejection (version : UInt32) : Rejection where
  reason := .versionMismatch
  message := some ("server supports version 1, client sent " ++ toString version.toNat)

/-- The server echoes what the client proposes. -/
def welcome (hello : Hello) : Welcome where
  version := 1
  instanceId := "pane-server"
  maxMessageSize := hello.maxMessageSize
  maxOutstandingRequests := hello.maxOutstandingRequests
  bindings := []

/-- The decision of the server. -/
def decision (hello : Hello) : Decision :=
  if hello.version = 1 then .ok (welcome hello) else .err (rejection hello.version)

theorem received_decision (hello : Hello) : (decision hello).received = decision hello := by
  unfold decision
  split <;> rfl

theorem decision_received (hello : Hello) : decision hello.received = decision hello := rfl

/-- `read_frame` on a stream: it waits for the bytes that a frame still lacks. -/
def readFrom (codec : FrameCodec) (q : Stream) : Option (Except FrameError Frame × Stream) :=
  match codec.readFrameInner q.transit with
  | (.ok frame, rest) => some (.ok frame, { q with transit := rest })
  | (.error e, rest) =>
    if e = .endOfStream then none else some (.error e, { q with transit := rest })

section Reading

variable {codec : FrameCodec} {q q' : Stream} {payload rest : Bytes} {r : Except FrameError Frame}

theorem readFrom_eq (h : readFrom codec q = some (r, q')) :
    ∃ left, codec.readFrameInner q.transit = (r, left) ∧ r ≠ .error .endOfStream ∧
      q' = { q with transit := left } := by
  unfold readFrom at h
  split at h
  · next frame left hread =>
    cases h
    exact ⟨left, hread, by simp, rfl⟩
  · next e left hread =>
    split at h
    · cases h
    · next he =>
      cases h
      exact ⟨left, hread, by simpa using he, rfl⟩

theorem readFrom_nil (h : q.transit = []) : readFrom codec q = none := by
  rw [readFrom, h]
  rfl

def Knows (codec : FrameCodec) : Prop := codec.permissive = true ∨ 0 ∈ codec.knownServices

theorem acceptBody_control (hknows : Knows codec) (payload : Bytes) :
    codec.acceptBody (toLeBytes 2 (0 : UInt16).toNat ++ payload) = .ok (.message 0 payload) := by
  have hknown : ¬ (codec.permissive = false ∧ (0 : UInt16) ∉ codec.knownServices) := by
    rintro ⟨hstrict, hunknown⟩
    obtain hloose | hknown := hknows
    · rw [hloose] at hstrict
      cases hstrict
    · exact hunknown hknown
  rw [acceptBody_encoded, if_neg (by decide), if_neg hknown]

theorem readFrom_whole (hknows : Knows codec)
    (hsize : 2 + payload.length ≤ codec.maxMessageSize.toNat)
    (hq : q.transit = frameBytes 0 payload ++ rest) :
    readFrom codec q = some (.ok (.message 0 payload), { q with transit := rest }) := by
  rw [readFrom, hq, readFrameInner_frameBytes hsize, acceptBody_control hknows]

theorem readFrom_frame (hknows : Knows codec) (hmeasured : Measured (0, payload))
    (hq : q.transit ++ q.unsent = frameBytes 0 payload ++ rest)
    (h : readFrom codec q = some (r, q')) :
    (2 + payload.length ≤ codec.maxMessageSize.toNat ∧ r = .ok (.message 0 payload) ∧
      q'.transit ++ q'.unsent = rest ∧ q'.unsent = q.unsent) ∨
    (codec.maxMessageSize.toNat < 2 + payload.length ∧
      ∃ declared max, r = .error (.oversized declared max)) := by
  obtain ⟨left, hread, hwait, rfl⟩ := readFrom_eq h
  by_cases hsize : 2 + payload.length ≤ codec.maxMessageSize.toNat
  · refine .inl ⟨hsize, ?_⟩
    have hfront := List.prefix_append (frameBytes 0 payload) rest
    rw [← hq] at hfront
    by_cases hlength : q.transit.length < (frameBytes 0 payload).length
    · have hpart := List.prefix_of_prefix_length_le (List.prefix_append _ q.unsent) hfront
        (Nat.le_of_lt hlength)
      have hnone := readFrameInner_incomplete hsize hpart hlength
      rw [hread] at hnone
      exact absurd hnone hwait
    · obtain ⟨transit, htransit⟩ := List.prefix_of_prefix_length_le hfront
        (List.prefix_append _ q.unsent) (Nat.le_of_not_lt hlength)
      rw [← htransit, readFrameInner_frameBytes hsize, acceptBody_control hknows] at hread
      cases hread
      refine ⟨rfl, ?_, rfl⟩
      rw [← htransit, List.append_assoc, List.append_cancel_left_eq] at hq
      exact hq
  · have hlarge : codec.maxMessageSize.toNat < 2 + payload.length := Nat.lt_of_not_le hsize
    refine .inr ⟨hlarge, ?_⟩
    have hshort : ¬ q.transit.length < 4 := by
      intro hshort
      rw [FrameCodec.readFrameInner, takeBytes_short hshort] at hread
      cases hread
      exact hwait rfl
    have hfront : toLeBytes 4 (2 + payload.length) <+: q.transit ++ q.unsent := by
      rw [hq, frameBytes, List.append_assoc]
      exact List.prefix_append _ _
    have hlength : (toLeBytes 4 (2 + payload.length)).length ≤ q.transit.length := by
      rw [length_toLeBytes]
      omega
    obtain ⟨transit, htransit⟩ := List.prefix_of_prefix_length_le hfront
      (List.prefix_append _ q.unsent) hlength
    have hover : (codec.readFrameInner (toLeBytes 4 (2 + payload.length) ++ transit)).1 = _ :=
      readFrameInner_overlong hlarge hmeasured
    rw [htransit, hread] at hover
    exact ⟨_, _, hover⟩

end Reading

end Pane.Handshake
