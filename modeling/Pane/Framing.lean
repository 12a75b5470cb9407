import Pane.HashTable
import Pane.Messages
import Pane.Serialization

namespace Pane.Framing

open Pane.HashTable Pane.Messages Pane.Serialization

inductive Frame
  | message (service : UInt16) (payload : Bytes)
  | abort
deriving DecidableEq

/-- The kinds of errors that the framing layer makes itself. All the others come
from the transport and are passed on. -/
inductive ErrorKind
  | unexpectedEof
  | writeZero
  | other (code : Nat)
deriving DecidableEq

structure IoError where
  kind : ErrorKind
  text : String
deriving DecidableEq

inductive FrameError
  | oversized (declared limit : UInt32)
  | unknownService (service : UInt16)
  | transport (error : IoError)
  | tooShort (declared : UInt32)
  | poisoned
deriving DecidableEq

def FrameError.endOfStream : FrameError :=
  .transport ⟨.unexpectedEof, "failed to fill whole buffer"⟩

def FrameError.forgetText : FrameError → FrameError
  | .transport e => .transport ⟨e.kind, ""⟩
  | e => e

structure FrameCodec where
  maxMessageSize : UInt32
  knownServices : HashSet UInt16
  permissive : Bool
  poisoned : Bool

namespace FrameCodec

/-- A codec that knows the control service only. -/
def new (maxMessageSize : UInt32) : FrameCodec :=
  ⟨maxMessageSize, (∅ : HashSet UInt16).insert 0 (), false, false⟩

/-- The codec of the server, which takes every service. -/
def newPermissive (maxMessageSize : UInt32) : FrameCodec := ⟨maxMessageSize, ∅, true, false⟩

def setMaxMessageSize (codec : FrameCodec) (max : UInt32) : FrameCodec :=
  { codec with maxMessageSize := max }

/-- The reserved service cannot be registered. There is no result where the
source panics. -/
def registerService (codec : FrameCodec) (service : UInt16) : Option FrameCodec :=
  if service = 0xFFFF then none
  else some { codec with knownServices := codec.knownServices.insert service () }

/-- Steps 4 to 6 of `read_frame_inner`: the whole body is there. -/
def acceptBody (codec : FrameCodec) (body : Bytes) : Except FrameError Frame :=
  let service := UInt16.ofNat (fromLeBytes (body.take 2))
  if service = 0xFFFF then .ok .abort
  else if codec.permissive = false ∧ service ∉ codec.knownServices then
    .error (.unknownService service)
  else .ok (.message service (body.drop 2))

/-- Steps 2 and 3: check the length, then read as many bytes. -/
def readBody (codec : FrameCodec) (length : UInt32) (bytes : Bytes) :
    Except FrameError Frame × Bytes :=
  if length < 2 then (.error (.tooShort length), bytes)
  else if codec.maxMessageSize < length then
    (.error (.oversized length codec.maxMessageSize), bytes)
  else match takeBytes length.toNat bytes with
    | none => (.error .endOfStream, [])
    | some (body, rest) => (codec.acceptBody body, rest)

def readFrameInner (codec : FrameCodec) (bytes : Bytes) : Except FrameError Frame × Bytes :=
  match takeBytes 4 bytes with
  | none => (.error .endOfStream, [])
  | some (lenBuf, rest) => codec.readBody (UInt32.ofNat (fromLeBytes lenBuf)) rest

/-- Read one frame from a stream of which `bytes` are still to come. -/
def readFrame (codec : FrameCodec) (bytes : Bytes) :
    Except FrameError Frame × FrameCodec × Bytes :=
  if codec.poisoned then (.error .poisoned, codec, bytes)
  else match codec.readFrameInner bytes with
    | (.ok frame, rest) => (.ok frame, codec, rest)
    | (.error e, rest) => (.error e, { codec with poisoned := true }, rest)

/-- Call `read_frame` again and again, up to the first error. With the error
come the bytes that were left when the failing call began. -/
def readAll : Nat → FrameCodec → Bytes → List Frame × Option (FrameError × Bytes)
  | 0, _, _ => ([], none)
  | fuel + 1, codec, bytes => match codec.readFrame bytes with
    | (.error e, _, _) => ([], some (e, bytes))
    | (.ok frame, codec, rest) =>
      (frame :: (readAll fuel codec rest).1, (readAll fuel codec rest).2)

end FrameCodec

/-- The wire format that all encoders write. The length counts the service and
the payload; the cast to 32 bits drops what lies above. -/
def frameBytes (service : UInt16) (payload : Bytes) : Bytes :=
  toLeBytes 4 (2 + payload.length) ++ (toLeBytes 2 service.toNat ++ payload)

namespace FrameCodec

/-- Append a frame to what was written before. There is no result where the
source panics. -/
def writeFrame (out : Bytes) (service : UInt16) (payload : Bytes) : Option Bytes :=
  if service = 0xFFFF then none else some (out ++ frameBytes service payload)

def encodeFrame (service : UInt16) (payload : Bytes) : Option Bytes :=
  if service = 0xFFFF then none else some (frameBytes service payload)

def writeAbort (out : Bytes) : Bytes := out ++ frameBytes 0xFFFF []

end FrameCodec

/-- How a non-blocking sink answers a call of `write`. -/
inductive SinkAnswer
  | wrote (n : Nat)
  | wouldBlock
  | interrupted
  | failed (error : IoError)

/-- The write buffer of a non-blocking connection. -/
structure FrameWriter where
  buf : Bytes
  flushPos : Nat

namespace FrameWriter

def new : FrameWriter := ⟨[], 0⟩

/-- The reserved service is only refused in debug builds. -/
def enqueue (w : FrameWriter) (service : UInt16) (payload : Bytes) : FrameWriter :=
  { w with buf := w.buf ++ frameBytes service payload }

def isEmpty (w : FrameWriter) : Bool := w.buf.length ≤ w.flushPos

def pendingBytes (w : FrameWriter) : Nat := w.buf.length - w.flushPos

/-- Write until everything is written or the sink stops. It never takes more than
it is offered, and it blocks after the last of these answers. -/
def tryFlush (w : FrameWriter) : List SinkAnswer → Except IoError Bool × FrameWriter
  | [] => if w.flushPos < w.buf.length then (.ok false, w) else (.ok true, new)
  | answer :: answers =>
    if w.flushPos < w.buf.length then match answer with
      | .wrote 0 => (.error ⟨.writeZero, "write returned 0 bytes"⟩, w)
      | .wrote (n + 1) =>
        tryFlush { w with flushPos := w.flushPos + min (n + 1) w.pendingBytes } answers
      | .wouldBlock => (.ok false, w)
      | .interrupted => tryFlush w answers
      | .failed e => (.error e, w)
    else (.ok true, new)

end FrameWriter

section Decoding

variable {codec : FrameCodec} {service : UInt16} {payload rest body : Bytes}

theorem takeBytes_append (front rest : Bytes) :
    takeBytes front.length (front ++ rest) = some (front, rest) := by
  simp [takeBytes]

theorem takeBytes_short {n : Nat} {bytes : Bytes} (h : bytes.length < n) :
    takeBytes n bytes = none := by
  rw [takeBytes, if_neg (by omega)]

theorem service_toLeBytes (service : UInt16) :
    UInt16.ofNat (fromLeBytes (toLeBytes 2 service.toNat)) = service := by
  have hlt : service.toNat < 256 ^ 2 := service.toNat_lt
  rw [fromLeBytes_toLeBytes, Nat.mod_eq_of_lt hlt, UInt16.ofNat_toNat]

theorem length_toLeBytes_ofNat (n : Nat) :
    UInt32.ofNat (fromLeBytes (toLeBytes 4 n)) = UInt32.ofNat n := by
  apply UInt32.toNat_inj.mp
  rw [fromLeBytes_toLeBytes, UInt32.toNat_ofNat', UInt32.toNat_ofNat']
  exact Nat.mod_mod _ _

theorem readFrameInner_toLeBytes (n : Nat) (rest : Bytes) :
    codec.readFrameInner (toLeBytes 4 n ++ rest) = codec.readBody (UInt32.ofNat n) rest := by
  have htake := takeBytes_append (toLeBytes 4 n) rest
  rw [length_toLeBytes] at htake
  rw [FrameCodec.readFrameInner, htake]
  simp only [length_toLeBytes_ofNat]

theorem acceptBody_encoded (service : UInt16) (payload : Bytes) :
    codec.acceptBody (toLeBytes 2 service.toNat ++ payload) =
      if service = 0xFFFF then .ok .abort
      else if codec.permissive = false ∧ service ∉ codec.knownServices then
        .error (.unknownService service)
      else .ok (.message service payload) := by
  have hfront : (toLeBytes 2 service.toNat ++ payload).take 2 = toLeBytes 2 service.toNat :=
    List.take_left' (length_toLeBytes 2 _)
  have hback : (toLeBytes 2 service.toNat ++ payload).drop 2 = payload :=
    List.drop_left' (length_toLeBytes 2 _)
  simp only [FrameCodec.acceptBody, hfront, hback, service_toLeBytes]

theorem toNat_length {n : Nat} (h : n ≤ codec.maxMessageSize.toNat) :
    (UInt32.ofNat n).toNat = n := by
  have hlt := codec.maxMessageSize.toNat_lt
  exact UInt32.toNat_ofNat_of_lt' (Nat.lt_of_le_of_lt h hlt)

theorem readFrameInner_frameBytes (hsize : 2 + payload.length ≤ codec.maxMessageSize.toNat) :
    codec.readFrameInner (frameBytes service payload ++ rest) =
      (codec.acceptBody (toLeBytes 2 service.toNat ++ payload), rest) := by
  have hn := toNat_length hsize
  have hbody : (toLeBytes 2 service.toNat ++ payload).length = 2 + payload.length := by simp
  have htake := takeBytes_append (toLeBytes 2 service.toNat ++ payload) rest
  rw [hbody] at htake
  have hshort : ¬ UInt32.ofNat (2 + payload.length) < 2 := by
    rw [UInt32.lt_iff_toNat_lt, hn]
    show ¬ 2 + payload.length < 2
    omega
  have hlong : ¬ codec.maxMessageSize < UInt32.ofNat (2 + payload.length) := by
    rw [UInt32.lt_iff_toNat_lt, hn]
    omega
  rw [frameBytes, List.append_assoc, readFrameInner_toLeBytes, FrameCodec.readBody, if_neg hshort,
    if_neg hlong, hn, htake]

theorem readFrameInner_incomplete {front : Bytes}
    (hsize : 2 + payload.length ≤ codec.maxMessageSize.toNat)
    (hfront : front <+: frameBytes service payload)
    (hlength : front.length < (frameBytes service payload).length) :
    (codec.readFrameInner front).1 = .error .endOfStream := by
  by_cases hshort : front.length < 4
  · rw [FrameCodec.readFrameInner, takeBytes_short hshort]
  have hn := toNat_length hsize
  have hlen : (toLeBytes 4 (2 + payload.length)).length ≤ front.length := by
    rw [length_toLeBytes]
    omega
  obtain ⟨body, rfl⟩ := List.prefix_of_prefix_length_le (List.prefix_append _ _) hfront hlen
  have hbody : body.length < 2 + payload.length := by
    simp only [frameBytes, List.length_append, length_toLeBytes] at hlength
    omega
  have htiny : ¬ UInt32.ofNat (2 + payload.length) < 2 := by
    rw [UInt32.lt_iff_toNat_lt, hn]
    show ¬ 2 + payload.length < 2
    omega
  have hlong : ¬ codec.maxMessageSize < UInt32.ofNat (2 + payload.length) := by
    rw [UInt32.lt_iff_toNat_lt, hn]
    omega
  rw [readFrameInner_toLeBytes, FrameCodec.readBody, if_neg htiny, if_neg hlong, hn,
    takeBytes_short hbody]

theorem readFrameInner_overlong (hsize : codec.maxMessageSize.toNat < 2 + payload.length)
    (hfits : 2 + payload.length < 2 ^ 32) :
    (codec.readFrameInner (toLeBytes 4 (2 + payload.length) ++ rest)).1 =
      .error (.oversized (UInt32.ofNat (2 + payload.length)) codec.maxMessageSize) := by
  have hn : (UInt32.ofNat (2 + payload.length)).toNat = 2 + payload.length :=
    UInt32.toNat_ofNat_of_lt' hfits
  have hshort : ¬ UInt32.ofNat (2 + payload.length) < 2 := by
    rw [UInt32.lt_iff_toNat_lt, hn]
    show ¬ 2 + payload.length < 2
    omega
  have hlong : codec.maxMessageSize < UInt32.ofNat (2 + payload.length) := by
    rw [UInt32.lt_iff_toNat_lt, hn]
    exact hsize
  rw [readFrameInner_toLeBytes, FrameCodec.readBody, if_neg hshort, if_pos hlong]

theorem readFrameInner_oversized (hsize : codec.maxMessageSize.toNat < 2 + payload.length)
    (hfits : 2 + payload.length < 2 ^ 32) :
    (codec.readFrameInner (frameBytes service payload ++ rest)).1 =
      .error (.oversized (UInt32.ofNat (2 + payload.length)) codec.maxMessageSize) := by
  rw [frameBytes, List.append_assoc]
  exact readFrameInner_overlong hsize hfits

end Decoding

end Pane.Framing
