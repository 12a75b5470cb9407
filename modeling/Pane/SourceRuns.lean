import Mathlib.Data.List.Induction
import Pane.WrittenBytes

namespace Pane.SourceRuns

open Pane.Messages Pane.Framing Pane.NonBlockingFraming Pane.CoreRequest Pane.ConnectionSource
open Pane.WrittenBytes

abbrev PollToken := Nat

/-- A `ConnectionSource` in an event loop, with the token that it saved. -/
structure Registered where
  source : Source
  registeredToken : Option PollToken

namespace Registered

def new (maxMessageSize : UInt32) : Registered := ⟨Source.new maxMessageSize, none⟩

/-- The token is saved by the first call. -/
def processEvents (pc : Postcard) (x : Registered) (token : PollToken) (ready : Readiness) :
    Processed × Registered :=
  let processed := x.source.processEvents pc ready
  (processed, ⟨processed.source, some (x.registeredToken.getD token)⟩)

/-- If nothing is pending, look into the channel for one frame. -/
def peek (source : Source) : Source :=
  if source.writer.isEmpty then
    match source.writeRx with
    | [] => source
    | msg :: msgs => { source with writer := source.writer.enqueue msg.1 msg.2, writeRx := msgs }
  else source

/-- The result is the token of a synthetic event that reports the socket as writable. -/
def beforeSleep (x : Registered) : Option PollToken × Registered :=
  let source := peek x.source
  (if source.writer.isEmpty then none else x.registeredToken, { x with source })

theorem peek_cases (source : Source) :
    ((source.writer.isEmpty = false ∨ source.writeRx = []) ∧ peek source = source) ∨
    ∃ msg msgs, source.writer.isEmpty = true ∧ source.writeRx = msg :: msgs ∧ peek source =
      { source with writer := source.writer.enqueue msg.1 msg.2, writeRx := msgs } := by
  rw [peek]
  cases source.writer.isEmpty with
  | false => exact .inl ⟨.inl rfl, rfl⟩
  | true =>
    cases source.writeRx with
    | nil => exact .inl ⟨.inr rfl, rfl⟩
    | cons msg msgs => exact .inr ⟨msg, msgs, rfl, rfl, rfl⟩

end Registered

def upToBlock : List Delivery → List Delivery × List Delivery
  | [] => ([], [])
  | .wouldBlock :: ds => ([.wouldBlock], ds)
  | d :: ds => (d :: (upToBlock ds).1, (upToBlock ds).2)

/-- A source with its socket. The histories of what was sent into the channel, what was
enqueued directly, what the socket took and gave and what the callback got are not
in the source; `ended` tells that a call met the end of the stream. -/
structure Session extends Registered where
  socket : List Delivery
  sent : List WriteMessage
  enqueued : List WriteMessage
  written : Bytes
  taken : List Delivery
  ended : Bool
  delivered : List LooperMessage
  removed : Bool

inductive Happening
  /-- Another thread sends into the write channel. -/
  | send (msg : WriteMessage)
  /-- The looper thread calls `SharedWriter::enqueue`. -/
  | enqueue (msg : WriteMessage)
  | processEvents (token : PollToken) (readable writable : Bool) (sink : List SinkAnswer)
  | beforeSleep

namespace Session

def new (maxMessageSize : UInt32) (socket : List Delivery) : Session :=
  ⟨Registered.new maxMessageSize, socket, [], [], [], [], false, [], false⟩

def flushed (pc : Postcard) (source : Source) (ready : Readiness) : Bytes :=
  let source := source.drainWriteChannel
  match (source.read pc ready).loss with
  | some _ => []
  | none => if ready.writable then accepted source.writer ready.sink else []

def poll (pc : Postcard) (x : Session) (token : PollToken) (readable writable : Bool)
    (sink : List SinkAnswer) : Session :=
  let split := if readable then upToBlock x.socket else ([], x.socket)
  let ready : Readiness := ⟨readable, writable, split.1, sink⟩
  let result := x.toRegistered.processEvents pc token ready
  { x with
    toRegistered := result.2
    socket := split.2
    written := x.written ++ flushed pc x.source ready
    taken := x.taken ++ split.1
    ended := x.ended || (readable && decide (.wouldBlock ∉ split.1))
    delivered := x.delivered ++ result.1.delivered
    removed := result.1.action = .remove }

def step (pc : Postcard) (x : Session) (happening : Happening) : Session :=
  if x.removed then x
  else match happening with
    | .send msg =>
      { x with source := { x.source with writeRx := x.source.writeRx ++ [msg] }, sent := x.sent ++ [msg] }
    | .enqueue msg =>
      { x with
        source := { x.source with writer := x.source.writer.enqueue msg.1 msg.2 }
        enqueued := x.enqueued ++ [msg] }
    | .processEvents token readable writable sink => x.poll pc token readable writable sink
    | .beforeSleep => { x with toRegistered := x.toRegistered.beforeSleep.2 }

def run (pc : Postcard) (maxMessageSize : UInt32) (socket : List Delivery)
    (happenings : List Happening) : Session :=
  happenings.foldl (step pc) (new maxMessageSize socket)

variable {pc : Postcard} {maxMessageSize : UInt32} {socket : List Delivery}

theorem step_removed {x : Session} (hremoved : x.removed = true) (happening : Happening) :
    x.step pc happening = x := if_pos hremoved

theorem step_live {x : Session} (hremoved : x.removed = false) (happening : Happening) :
    x.step pc happening = match happening with
      | .send msg => { x with
          source := { x.source with writeRx := x.source.writeRx ++ [msg] }, sent := x.sent ++ [msg] }
      | .enqueue msg => { x with
          source := { x.source with writer := x.source.writer.enqueue msg.1 msg.2 }
          enqueued := x.enqueued ++ [msg] }
      | .processEvents token readable writable sink => x.poll pc token readable writable sink
      | .beforeSleep => { x with toRegistered := x.toRegistered.beforeSleep.2 } :=
  if_neg (by rw [hremoved]; exact Bool.false_ne_true)

theorem run_concat (happenings : List Happening) (happening : Happening) :
    run pc maxMessageSize socket (happenings ++ [happening]) =
      (run pc maxMessageSize socket happenings).step pc happening :=
  List.foldl_append

theorem run_induction {P : Session → Prop} (hnew : P (new maxMessageSize socket))
    (hstep : ∀ x happening, P x → x.removed = false → P (x.step pc happening))
    (happenings : List Happening) : P (run pc maxMessageSize socket happenings) := by
  induction happenings using List.reverseRecOn with
  | nil => exact hnew
  | append_singleton happenings happening ih =>
    rw [run_concat]
    cases hremoved : (run pc maxMessageSize socket happenings).removed with
    | false => exact hstep _ happening ih hremoved
    | true =>
      rw [step_removed hremoved]
      exact ih

end Session

end Pane.SourceRuns
