import Pane.Looper
import Pane.NonBlockingFraming

namespace Pane.ConnectionSource

open Pane.Messages Pane.Framing Pane.NonBlockingFraming Pane.CoreRequest

abbrev WriteMessage := UInt16 × Bytes

/-- Callers stop pulling from their channel at so many unflushed bytes. -/
def writeHighwaterBytes : Nat := 16 * 1024

/-- A `ConnectionSource`: the decoder, the write buffer that it shares with the
dispatch context, and what waits in the channel of the other threads. -/
structure Source where
  reader : FrameReader
  writer : FrameWriter
  writeRx : List WriteMessage
  writeInterest : Bool

namespace Source

def new (maxMessageSize : UInt32) : Source where
  reader := FrameReader.new maxMessageSize true
  writer := FrameWriter.new
  writeRx := []
  writeInterest := false

end Source

def drain (writer : FrameWriter) : List WriteMessage → FrameWriter × List WriteMessage
  | [] => (writer, [])
  | msg :: msgs =>
    if writeHighwaterBytes ≤ writer.pendingBytes then (writer, msg :: msgs)
    else drain (writer.enqueue msg.1 msg.2) msgs

def Source.drainWriteChannel (source : Source) : Source :=
  let drained := drain source.writer source.writeRx
  { source with writer := drained.1, writeRx := drained.2 }

/-- `classify_frame`: an abort is no message, and a control frame that does not
decode is an error. -/
def classifyFrame (pc : Postcard) : Frame → Except String (Option LooperMessage)
  | .message service payload =>
    if service = 0 then
      match pc.controlFromBytes payload with
      | some msg => .ok (some (.control msg))
      | none => .error "control frame deserialization failed"
    else .ok (some (.service service payload))
  | .abort => .ok none

/-- Why a connection is dead. -/
inductive Loss
  | endOfStream
  | abort
  | undecodable (text : String)
  | unreadable (error : FrameError)
  | unwritable (error : IoError)

def Loss.ofFrameError : FrameError → Loss
  | .transport ⟨.unexpectedEof, _⟩ => .endOfStream
  | e => .unreadable e

/-- What the read path of `process_events` leaves behind. -/
structure ReadOutcome where
  delivered : List LooperMessage
  loss : Option Loss
  reader : FrameReader

/-- Read frames and hand them on, until the socket blocks or the connection is
found to be dead. -/
def readFrames (pc : Postcard) : Nat → FrameReader → List Delivery → ReadOutcome
  | 0, reader, _ => ⟨[], none, reader⟩
  | calls + 1, reader, incoming => match reader.tryReadFrame incoming with
    | (.ok none, reader, _) => ⟨[], none, reader⟩
    | (.error e, reader, _) => ⟨[], some (.ofFrameError e), reader⟩
    | (.ok (some frame), reader, incoming) => match classifyFrame pc frame with
      | .ok (some msg) =>
        let rest := readFrames pc calls reader incoming
        { rest with delivered := msg :: rest.delivered }
      | .ok none => ⟨[], some .abort, reader⟩
      | .error text => ⟨[], some (.undecodable text), reader⟩

inductive PostAction
  | cont
  | reregister
  | remove
deriving DecidableEq

/-- What the poller reports, and how the socket behaves until it blocks. -/
structure Readiness where
  readable : Bool
  writable : Bool
  incoming : List Delivery
  sink : List SinkAnswer

/-- The effect of `process_events`. The loss is not returned by the source, only
the action that follows from it. -/
structure Processed where
  delivered : List LooperMessage
  action : PostAction
  loss : Option Loss
  source : Source

/-- The read path. -/
def Source.read (pc : Postcard) (source : Source) (ready : Readiness) : ReadOutcome :=
  if ready.readable then readFrames pc (size ready.incoming + 1) source.reader ready.incoming
  else ⟨[], none, source.reader⟩

/-- The write path, with the interest in further writability. -/
def Source.write (source : Source) (ready : Readiness) : Except IoError PostAction × Source :=
  let flushed := if ready.writable then source.writer.tryFlush ready.sink
    else (.ok false, source.writer)
  let source := { source with writer := flushed.2 }
  match flushed.1 with
  | .error e => (.error e, source)
  | .ok drained =>
    let done := drained && source.writeInterest
    let source := if done then { source with writeInterest := false } else source
    if 0 < source.writer.pendingBytes ∧ source.writeInterest = false then
      (.ok .reregister, { source with writeInterest := true })
    else (.ok (if done then .reregister else .cont), source)

def Source.processEvents (pc : Postcard) (source : Source) (ready : Readiness) : Processed :=
  let source := source.drainWriteChannel
  let read := source.read pc ready
  let source := { source with reader := read.reader }
  match read.loss with
  | some loss => ⟨read.delivered, .remove, some loss, source⟩
  | none => match source.write ready with
    | (.error e, source) => ⟨read.delivered, .remove, some (.unwritable e), source⟩
    | (.ok action, source) => ⟨read.delivered, action, none, source⟩

theorem Source.write_cases (source : Source) (ready : Readiness) :
    let flushed := if ready.writable then source.writer.tryFlush ready.sink
      else (.ok false, source.writer)
    (∃ e, flushed.1 = .error e ∧
      source.write ready = (.error e, { source with writer := flushed.2 })) ∨
    ∃ drained action interest, flushed.1 = .ok drained ∧ action ≠ .remove ∧
      source.write ready =
        (.ok action, { source with writer := flushed.2, writeInterest := interest }) := by
  intro flushed
  have hwrite : source.write ready = match flushed.1 with
      | .error e => (.error e, { source with writer := flushed.2 })
      | .ok drained =>
        let done := drained && source.writeInterest
        let source := { source with writer := flushed.2 }
        let source := if done then { source with writeInterest := false } else source
        if 0 < source.writer.pendingBytes ∧ source.writeInterest = false then
          (.ok .reregister, { source with writeInterest := true })
        else (.ok (if done then .reregister else .cont), source) := rfl
  rw [hwrite]
  obtain ⟨result, writer⟩ := flushed
  cases result with
  | error e => exact .inl ⟨e, rfl, rfl⟩
  | ok drained =>
    refine .inr ⟨drained, ?_⟩
    dsimp only
    split
    · split
      · exact ⟨.reregister, true, rfl, nofun, rfl⟩
      · exact ⟨.reregister, false, rfl, nofun, rfl⟩
    · split
      · exact ⟨.reregister, true, rfl, nofun, rfl⟩
      · exact ⟨.cont, source.writeInterest, rfl, nofun, rfl⟩

theorem Source.processEvents_cases (pc : Postcard) (source : Source) (ready : Readiness) :
    let drained := source.drainWriteChannel
    let read := drained.read pc ready
    let written := Source.write { drained with reader := read.reader } ready
    (∃ loss, read.loss = some loss ∧ source.processEvents pc ready =
      ⟨read.delivered, .remove, some loss, { drained with reader := read.reader }⟩) ∨
    (∃ e, read.loss = none ∧ written.1 = .error e ∧ source.processEvents pc ready =
      ⟨read.delivered, .remove, some (.unwritable e), written.2⟩) ∨
    ∃ action, read.loss = none ∧ written.1 = .ok action ∧ source.processEvents pc ready =
      ⟨read.delivered, action, none, written.2⟩ := by
  intro drained read written
  have hevents : source.processEvents pc ready = match read.loss with
      | some loss => ⟨read.delivered, .remove, some loss, { drained with reader := read.reader }⟩
      | none => match written with
        | (.error e, source) => ⟨read.delivered, .remove, some (.unwritable e), source⟩
        | (.ok action, source) => ⟨read.delivered, action, none, source⟩ := rfl
  rw [hevents]
  cases read.loss with
  | some loss => exact .inl ⟨loss, rfl, rfl⟩
  | none =>
    obtain ⟨result, source'⟩ := written
    cases result with
    | error e => exact .inr (.inl ⟨e, rfl, rfl, rfl⟩)
    | ok action => exact .inr (.inr ⟨action, rfl, rfl, rfl⟩)

end Pane.ConnectionSource
