import Pane.Framing

namespace Pane.NonBlockingFraming

open Pane.HashTable Pane.Messages Pane.Serialization Pane.Framing

/-- What a non-blocking source has for its reader. A chunk has at least one byte,
since to read nothing is to be at the end of the stream. -/
inductive Delivery
  | chunk (first : UInt8) (more : Bytes)
  | wouldBlock
  | interrupted
  | failed (error : IoError)
deriving DecidableEq

/-- All that is still to come from a source; then the stream ends. -/
def bytesOf : List Delivery → Bytes
  | [] => []
  | .chunk first more :: ds => first :: more ++ bytesOf ds
  | .wouldBlock :: ds => bytesOf ds
  | .interrupted :: ds => bytesOf ds
  | .failed _ :: ds => bytesOf ds

def size : List Delivery → Nat
  | [] => 0
  | .chunk _ more :: ds => more.length + 1 + size ds
  | .wouldBlock :: ds => 1 + size ds
  | .interrupted :: ds => 1 + size ds
  | .failed _ :: ds => 1 + size ds

def putBack : Bytes → List Delivery → List Delivery
  | [], ds => ds
  | first :: more, ds => .chunk first more :: ds

theorem bytesOf_putBack (left : Bytes) (ds : List Delivery) :
    bytesOf (putBack left ds) = left ++ bytesOf ds := by
  cases left <;> rfl

theorem size_putBack (left : Bytes) (ds : List Delivery) :
    size (putBack left ds) = left.length + size ds := by
  cases left with
  | nil => exact (Nat.zero_add _).symm
  | cons first more => rfl

inductive ReadProgress
  | complete
  | wouldBlock
  | eof
  | error (e : IoError)

/-- What `read_into` leaves behind. -/
structure Reading where
  progress : ReadProgress
  buf : Bytes
  filled : Nat
  source : List Delivery

def overwrite (buf : Bytes) (pos : Nat) (got : Bytes) : Bytes :=
  buf.take pos ++ got ++ buf.drop (pos + got.length)

/-- Fill `buf` from the position `filled` on. -/
def readInto (buf : Bytes) (filled : Nat) : List Delivery → Reading
  | [] => ⟨if filled < buf.length then .eof else .complete, buf, filled, []⟩
  | d :: ds =>
    if filled < buf.length then match d with
      | .wouldBlock => ⟨.wouldBlock, buf, filled, ds⟩
      | .interrupted => readInto buf filled ds
      | .failed e => ⟨.error e, buf, filled, ds⟩
      | .chunk first more =>
        let room := buf.length - filled
        let got := (first :: more).take room
        -- a chunk with more bytes than there is room for ends the loop
        if more.length + 1 ≤ room then readInto (overwrite buf filled got) (filled + got.length) ds
        else ⟨.complete, overwrite buf filled got, filled + got.length,
          putBack ((first :: more).drop room) ds⟩
    else ⟨.complete, buf, filled, d :: ds⟩

inductive ReadState
  | length
  | body (bodyLen : UInt32)

structure FrameReader where
  maxMessageSize : UInt32
  permissive : Bool
  buf : Bytes
  filled : Nat
  state : ReadState

def resize (n : Nat) (buf : Bytes) : Bytes := buf.take n ++ List.replicate (n - buf.length) 0

namespace FrameReader

def new (maxMessageSize : UInt32) (permissive : Bool) : FrameReader :=
  ⟨maxMessageSize, permissive, List.replicate 4 0, 0, .length⟩

def reset (r : FrameReader) : FrameReader :=
  { r with buf := resize 4 r.buf, filled := 0, state := .length }

def closed : FrameError := .transport ⟨.unexpectedEof, "connection closed"⟩

/-- The arm of the loop for `ReadState::Body`. -/
def takeBody (r : FrameReader) (bodyLen : UInt32) (source : List Delivery) :
    Except FrameError (Option Frame) × FrameReader × List Delivery :=
  let got := readInto r.buf r.filled source
  let r := { r with buf := got.buf, filled := got.filled }
  match got.progress with
  | .wouldBlock => (.ok none, r, got.source)
  | .eof => (.error (.transport ⟨.unexpectedEof, "connection closed mid-frame (partial body)"⟩),
      r, got.source)
  | .error e => (.error (.transport e), r, got.source)
  | .complete =>
    let service := UInt16.ofNat (fromLeBytes (r.buf.take 2))
    if service = 0xFFFF then (.ok (some .abort), r.reset, got.source)
    else if r.permissive = false ∧ service ≠ 0 then
      (.error (.unknownService service), r, got.source)
    else (.ok (some (.message service ((r.buf.take bodyLen.toNat).drop 2))), r.reset, got.source)

/-- The arm for `ReadState::Length`. The loop comes round once more when the
prefix is complete. -/
def takeLength (r : FrameReader) (source : List Delivery) :
    Except FrameError (Option Frame) × FrameReader × List Delivery :=
  let got := readInto r.buf r.filled source
  let r := { r with buf := got.buf, filled := got.filled }
  match got.progress with
  | .wouldBlock => (.ok none, r, got.source)
  | .eof =>
    if r.filled = 0 then (.error closed, r, got.source)
    else (.error (.transport ⟨.unexpectedEof,
      "connection closed mid-frame (partial length prefix)"⟩), r, got.source)
  | .error e => (.error (.transport e), r, got.source)
  | .complete =>
    let length := UInt32.ofNat (fromLeBytes (r.buf.take 4))
    if length < 2 then (.error (.tooShort length), r, got.source)
    else if r.maxMessageSize < length then
      (.error (.oversized length r.maxMessageSize), r, got.source)
    else takeBody { r with buf := resize length.toNat r.buf, filled := 0, state := .body length }
      length got.source

def tryReadFrame (r : FrameReader) (source : List Delivery) :
    Except FrameError (Option Frame) × FrameReader × List Delivery :=
  match r.state with
  | .length => r.takeLength source
  | .body bodyLen => r.takeBody bodyLen source

/-- Call `try_read_frame` again and again, up to the first error. -/
def pollAll : Nat → FrameReader → List Delivery → List Frame × Option FrameError
  | 0, _, _ => ([], none)
  | calls + 1, r, source => match r.tryReadFrame source with
    | (.error e, _, _) => ([], some e)
    | (.ok none, r, source) => pollAll calls r source
    | (.ok (some frame), r, source) =>
      (frame :: (pollAll calls r source).1, (pollAll calls r source).2)

end FrameReader

end Pane.NonBlockingFraming
