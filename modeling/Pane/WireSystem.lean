import Pane.Machines
import Pane.SteadyRuns
import Pane.Streams

namespace Pane.WireSystem

open Pane.HashTable Pane.Messages Pane.Server Pane.ServerActor Pane.Framing Pane.CoreRequest
open Pane.ConnectionSource Pane.Links Pane.Machines Pane.Overflow Pane.SteadyRuns

variable {Q : Type}

/-- How far the server is with a connection: `accept` has written `Ready`, the
actor was told and the threads of the connection run, its reader is done. -/
inductive Phase
  | new
  | greeted
  | joined
  | left
deriving DecidableEq

/-- A connection between a pane and the server. What the pane's writer took goes
up to the reader of the server; what the actor enqueues waits in the channel for
the writer thread, which sends it down to the reader of the pane. The histories
`taken` and `wrote` are not in the source. -/
structure Wire (Q : Type) where
  phase : Phase
  taken : List WriteMessage
  up : Q
  channel : List WriteMessage
  wrote : List WriteMessage
  down : Q
  delivered : List LooperMessage
  deaf : Bool

/-- The server with all its connections, at one moment. -/
structure System (Q : Type) where
  wires : ConnectionId → Wire Q
  queue : List ServerEvent
  past : List Input
  server : ServerState

/-- What does not change during a run. -/
structure Setting (Q : Type) where
  pc : Postcard
  accepts : Nat → Bool
  link : ConnectionId → Link WriteMessage Q

/-- What one of the threads of a connection does next. -/
inductive Action
  | greet
  | register (hello : Hello)
  | send (frame : WriteMessage)
  | driftUp (n : Nat)
  | serverRead
  | serverLeave
  | serverWrite
  | driftDown (n : Nat)
  | paneRead
  | paneLeave

inductive Label
  | wire (conn : ConnectionId) (action : Action)
  | act (order : HashOrder)

variable (net : Setting Q)

def Wire.new (conn : ConnectionId) : Wire Q where
  phase := .new
  taken := []
  up := (net.link conn).empty
  channel := []
  wrote := []
  down := (net.link conn).empty
  delivered := []
  deaf := false

/-- One turn of the pane's `reader_loop`: control frames are decoded, service
frames are handed on, and everything else ends the loop. -/
def Wire.deliver (w : Wire Q) (down : Q) : Option WriteMessage → Wire Q
  | none => { w with down, deaf := true }
  | some frame =>
    match classifyFrame net.pc (.message frame.1 frame.2) with
    | .ok (some msg) => { w with down, delivered := w.delivered ++ [msg] }
    | _ => { w with down, deaf := true }

def arrived (pc : Postcard) (frame : WriteMessage) : Option LooperMessage :=
  match classifyFrame pc (.message frame.1 frame.2) with
  | .ok msg => msg
  | .error _ => none

theorem deliver_eq (w : Wire Q) (down : Q) (frame : WriteMessage) :
    ∃ deaf, w.deliver net down (some frame) =
      { w with down, deaf, delivered := w.delivered ++ (arrived net.pc frame).toList } := by
  cases h : classifyFrame net.pc (.message frame.1 frame.2) with
  | error text => exact ⟨true, by simp [Wire.deliver, arrived, h]⟩
  | ok msg =>
    cases msg with
    | none => exact ⟨true, by simp [Wire.deliver, arrived, h]⟩
    | some msg => exact ⟨w.deaf, by simp [Wire.deliver, arrived, h]⟩

/-- A step of one thread, with the events that it posts to the actor. There is
none if the thread has to wait or is not there. -/
def Action.run (conn : ConnectionId) (w : Wire Q) : Action → Option (Wire Q × List ServerEvent)
  | .greet => do
    guard (w.phase = .new)
    let bytes ← net.pc.controlToAllocvec (.lifecycle .ready)
    let down ← (net.link conn).send (0, bytes) w.down
    return ({ w with phase := .greeted, wrote := w.wrote ++ [(0, bytes)], down }, [])
  | .register hello => do
    guard (w.phase = .greeted)
    return ({ w with phase := .joined }, [.newConnection conn hello])
  | .send frame => do
    let up ← (net.link conn).send frame w.up
    return ({ w with taken := w.taken ++ [frame], up }, [])
  | .driftUp n => some ({ w with up := (net.link conn).drift n w.up }, [])
  | .serverRead => do
    guard (w.phase = .joined)
    match ← (net.link conn).receive w.up with
    | (some frame, up) => return ({ w with up }, [.frame conn frame.1 frame.2])
    | (none, up) => return ({ w with up, phase := .left }, [.disconnected conn])
  | .serverLeave => do
    guard (w.phase = .joined)
    return ({ w with phase := .left }, [.disconnected conn])
  | .serverWrite => do
    guard (w.phase = .joined ∨ w.phase = .left)
    match w.channel with
    | [] => none
    | frame :: channel =>
      let down ← (net.link conn).send frame w.down
      return ({ w with channel, wrote := w.wrote ++ [frame], down }, [])
  | .driftDown n => some ({ w with down := (net.link conn).drift n w.down }, [])
  | .paneRead => do
    guard (w.deaf = false)
    let (frame, down) ← (net.link conn).receive w.down
    return (w.deliver net down frame, [])
  | .paneLeave => some ({ w with deaf := true }, [])

def System.new : System Q where
  wires := Wire.new net
  queue := []
  past := []
  server := Server.new

def message (f : Outbound) : WriteMessage := (f.service, f.payload)

def enqueued (attempts : List Attempt) (conn : ConnectionId) : List WriteMessage :=
  (acceptedFor attempts conn).map message

def System.act (x : System Q) (order : HashOrder) : Option (System Q) :=
  match x.queue with
  | [] => none
  | event :: queue =>
    let server := actorStep net.pc net.accepts x.server ⟨event, order⟩
    let attempts := server.attempts.drop x.server.attempts.length
    some {
      wires := fun c =>
        { x.wires c with channel := (x.wires c).channel ++ enqueued attempts c }
      queue
      past := x.past ++ [⟨event, order⟩]
      server }

def System.step (x : System Q) : Label → Option (System Q)
  | .wire conn action => do
    let (w, events) ← action.run net conn (x.wires conn)
    return { x with wires := Function.update x.wires conn w, queue := x.queue ++ events }
  | .act order => x.act net order

/-- All that an action can do. -/
inductive Move (conn : ConnectionId) (w : Wire Q) : Action → Wire Q → List ServerEvent → Prop
  | greet (bytes : Bytes) (down : Q) (hphase : w.phase = .new)
    (hbytes : net.pc.controlToAllocvec (.lifecycle .ready) = some bytes)
    (hsend : (net.link conn).send (0, bytes) w.down = some down) :
    Move conn w .greet { w with phase := .greeted, wrote := w.wrote ++ [(0, bytes)], down } []
  | register (hello : Hello) (hphase : w.phase = .greeted) :
    Move conn w (.register hello) { w with phase := .joined } [.newConnection conn hello]
  | send (frame : WriteMessage) (up : Q) (hsend : (net.link conn).send frame w.up = some up) :
    Move conn w (.send frame) { w with taken := w.taken ++ [frame], up } []
  | driftUp (n : Nat) : Move conn w (.driftUp n) { w with up := (net.link conn).drift n w.up } []
  | read (frame : WriteMessage) (up : Q) (hphase : w.phase = .joined)
    (hreceive : (net.link conn).receive w.up = some (some frame, up)) :
    Move conn w .serverRead { w with up } [.frame conn frame.1 frame.2]
  | broken (up : Q) (hphase : w.phase = .joined)
    (hreceive : (net.link conn).receive w.up = some (none, up)) :
    Move conn w .serverRead { w with up, phase := .left } [.disconnected conn]
  | leave (hphase : w.phase = .joined) :
    Move conn w .serverLeave { w with phase := .left } [.disconnected conn]
  | write (frame : WriteMessage) (channel : List WriteMessage) (down : Q)
    (hphase : w.phase = .joined ∨ w.phase = .left) (hchannel : w.channel = frame :: channel)
    (hsend : (net.link conn).send frame w.down = some down) :
    Move conn w .serverWrite { w with channel, wrote := w.wrote ++ [frame], down } []
  | driftDown (n : Nat) :
    Move conn w (.driftDown n) { w with down := (net.link conn).drift n w.down } []
  | deliver (frame : WriteMessage) (down : Q) (deaf : Bool) (hhears : w.deaf = false)
    (hreceive : (net.link conn).receive w.down = some (some frame, down)) :
    Move conn w .paneRead
      { w with down, deaf, delivered := w.delivered ++ (arrived net.pc frame).toList } []
  | cut (down : Q) (hreceive : (net.link conn).receive w.down = some (none, down)) :
    Move conn w .paneRead { w with down, deaf := true } []
  | deafen : Move conn w .paneLeave { w with deaf := true } []

variable {net}

theorem guard_bind {α : Type} {p : Prop} [Decidable p] {f : Unit → Option α} {a : α}
    (h : (guard p >>= f) = some a) : p ∧ f () = some a := by
  by_cases hp : p
  · rw [guard, if_pos hp] at h
    exact ⟨hp, h⟩
  · rw [guard, if_neg hp] at h
    cases h

theorem move_of_run {conn : ConnectionId} {w w' : Wire Q} {action : Action}
    {events : List ServerEvent} (h : action.run net conn w = some (w', events)) :
    Move net conn w action w' events := by
  cases action with
  | greet =>
    obtain ⟨hphase, h⟩ := guard_bind h
    obtain ⟨bytes, hbytes, h⟩ := Option.bind_eq_some_iff.mp h
    obtain ⟨down, hsend, h⟩ := Option.bind_eq_some_iff.mp h
    cases h
    exact .greet bytes down hphase hbytes hsend
  | register hello =>
    obtain ⟨hphase, h⟩ := guard_bind h
    cases h
    exact .register hello hphase
  | send frame =>
    obtain ⟨up, hsend, h⟩ := Option.bind_eq_some_iff.mp h
    cases h
    exact .send frame up hsend
  | driftUp n =>
    cases h
    exact .driftUp n
  | serverRead =>
    obtain ⟨hphase, h⟩ := guard_bind h
    obtain ⟨⟨frame, up⟩, hreceive, h⟩ := Option.bind_eq_some_iff.mp h
    cases frame with
    | none =>
      cases h
      exact .broken up hphase hreceive
    | some frame =>
      cases h
      exact .read frame up hphase hreceive
  | serverLeave =>
    obtain ⟨hphase, h⟩ := guard_bind h
    cases h
    exact .leave hphase
  | serverWrite =>
    obtain ⟨hphase, h⟩ := guard_bind h
    cases hchannel : w.channel with
    | nil =>
      rw [hchannel] at h
      cases h
    | cons frame channel =>
      rw [hchannel] at h
      obtain ⟨down, hsend, h⟩ := Option.bind_eq_some_iff.mp h
      cases h
      exact .write frame channel down hphase hchannel hsend
  | driftDown n =>
    cases h
    exact .driftDown n
  | paneRead =>
    obtain ⟨hhears, h⟩ := guard_bind h
    obtain ⟨⟨frame, down⟩, hreceive, h⟩ := Option.bind_eq_some_iff.mp h
    cases h
    cases frame with
    | none => exact .cut down hreceive
    | some frame =>
      obtain ⟨deaf, hdeliver⟩ := deliver_eq net w down frame
      rw [hdeliver]
      exact .deliver frame down deaf hhears hreceive
  | paneLeave =>
    cases h
    exact .deafen

variable (net)

def wires : Machine (System Q) Label := ⟨(· = System.new net), System.step net⟩

@[simp] theorem step_wires (x : System Q) (label : Label) :
    (wires net).step x label = x.step net label := rfl

abbrev Reached (ok : System Q → Label → Prop) : System Q → Prop := (wires net).Reachable ok

theorem reached_new {ok : System Q → Label → Prop} : Reached net ok (System.new net) := .start rfl

def runs (ok : System Q → Label → Bool) : List Label → System Q → Option (System Q)
  | [], x => some x
  | label :: labels, x => do
    guard (ok x label)
    runs ok labels (← x.step net label)

variable {net}

theorem reached_runs {ok : System Q → Label → Bool} {labels : List Label} {x y : System Q}
    (hx : Reached net (fun x label => ok x label = true) x) (h : runs net ok labels x = some y) :
    Reached net (fun x label => ok x label = true) y := by
  induction labels generalizing x with
  | nil =>
    cases h
    exact hx
  | cons label labels ih =>
    obtain ⟨hok, h⟩ := guard_bind h
    obtain ⟨z, hstep, h⟩ := Option.bind_eq_some_iff.mp h
    exact ih (.step label hx hok hstep) h

end Pane.WireSystem
