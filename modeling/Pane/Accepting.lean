import Pane.Handshake
import Pane.Machines
import Pane.WireHistory

namespace Pane.Accepting

open Pane.HashTable Pane.Messages Pane.Server Pane.ServerActor Pane.Framing Pane.CoreRequest
open Pane.ConnectionSource Pane.Links Pane.Streams Pane.WireSystem Pane.Handshake Pane.Machines

/-- How far a client of this library is with the handshake. -/
inductive Client
  | starting
  | waiting
  | connected (welcome : Welcome)
  | failed (error : ConnectError)
deriving DecidableEq

/-- How far a call of `accept` has got, with its variables: it waits for the Hello,
has it, writes the rejection, has taken an id, or has written the Welcome. From there
on the phase of the wire tells the rest. -/
inductive Accept
  | reading
  | checking (hello : Handshake.Hello)
  | rejecting (hello : Handshake.Hello)
  | welcoming (hello : Handshake.Hello) (connId : Nat)
  | serving (hello : Handshake.Hello) (connId : Nat)

namespace Accept

def hello : Accept → Option Handshake.Hello
  | .reading => none
  | .checking hello => some hello
  | .rejecting hello => some hello
  | .welcoming hello _ => some hello
  | .serving hello _ => some hello

def connId : Accept → Option Nat
  | .welcoming _ connId => some connId
  | .serving _ connId => some connId
  | _ => none

def decision : Accept → Option Decision
  | .rejecting hello => some (.err (rejection hello.version))
  | .serving hello _ => some (.ok (welcome hello))
  | _ => none

end Accept

/-- How a call of `accept` ends if it does not hand out a connection. -/
inductive Ending
  | failed (error : AcceptError)
  | panicked
deriving DecidableEq

/-- A call of `accept` and the client at the other end. The channel of the wire is
not used. -/
structure Line where
  client : Client
  accept : Accept
  ended : Option Ending
  wire : Wire Stream

/-- The server with all calls of `accept`. The write channels are found under the
ids of their connections. -/
structure State where
  lines : Nat → Line
  nextConnId : Nat
  channels : ConnectionId → List WriteMessage
  queue : List ServerEvent
  past : List Input
  server : ServerState

/-- What does not change during a run: the Hello of each client, unless it is not
one of this library. -/
structure Site where
  pc : Postcard
  cbor : Cbor
  accepts : Nat → Bool
  hellos : Nat → Option Handshake.Hello

/-- What a client or a call of `accept` does next in the handshake, or what befalls
it: an error of the transport, and bytes from someone who does as they like. -/
inductive Step
  | sendHello
  | readDecision
  | clientFails (error : IoError)
  | arrive (bytes : Bytes)
  | readHello
  | reject
  | refuse
  | allocate
  | welcome
  | acceptFails (error : IoError)

inductive Label
  | handshake (i : Nat) (step : Step)
  | wire (i : Nat) (action : Action)
  | act (order : HashOrder)

variable (site : Site)

def still : Stream := ⟨[], []⟩

def Line.new : Line where
  client := .starting
  accept := .reading
  ended := none
  wire := ⟨.new, [], still, [], [], still, [], false⟩

def State.new : State where
  lines _ := Line.new
  nextConnId := 1
  channels _ := []
  queue := []
  past := []
  server := Server.new

def writeControl (payload : Bytes) (q : Stream) : Option Stream :=
  (byteStream handshakeMaxMessageSize).send (0, payload) q

def ofDecision : Except ConnectError Welcome → Client
  | .ok welcome => .connected welcome
  | .error e => .failed e

/-- Serialize the answer, which may not fail, and start to write it. -/
def Line.answer (line : Line) (decision : Decision) (accept : Accept) : Option Line :=
  match site.cbor.decisionIntoWriter decision with
  | .error _ => some { line with ended := some .panicked }
  | .ok bytes => (writeControl bytes line.wire.down).map fun down =>
    { line with accept, wire.down := down }

/-- An error of the transport, with the stage of `accept` in which it comes up. -/
def Line.acceptFails (line : Line) (error : IoError) : Option HandshakeError :=
  match line.accept with
  | .reading => some (.connectionAborted (display (.transport error)))
  | .checking _ => none
  | .rejecting _ => some (.io error)
  | .welcoming .. => some (.io error)
  | .serving .. => if line.wire.phase = .new ∨ line.wire.phase = .greeted then some (.io error) else none

/-- A step of line `i`, with the next free id. -/
def Step.run (i : Nat) (line : Line) (next : Nat) : Step → Option (Line × Nat)
  | .sendHello => do
    guard (line.client = .starting)
    let hello ← site.hellos i
    match site.cbor.helloIntoWriter hello with
    | .error text =>
      return ({ line with client := .failed (.transport (.invalidData text)) }, next)
    | .ok bytes =>
      let up ← writeControl bytes line.wire.up
      return ({ line with client := .waiting, wire.up := up }, next)
  | .readDecision => do
    guard (line.client = .waiting ∧ line.wire.up.unsent = [])
    let (frame, down) ← readFrom (FrameCodec.new handshakeMaxMessageSize) line.wire.down
    return ({ line with
      client := ofDecision (Handshake.readDecision site.cbor frame), wire.down := down }, next)
  | .clientFails error => do
    guard (line.client = .waiting)
    let error := if line.wire.up.unsent = [] then
        .connectionAborted (display (.transport error))
      else .io error
    return ({ line with client := .failed (.transport error) }, next)
  | .arrive bytes => do
    guard (site.hellos i = none)
    return ({ line with wire.up.transit := line.wire.up.transit ++ bytes }, next)
  | .readHello => do
    guard (line.ended = none)
    match line.accept with
    | .reading =>
      let (frame, up) ← readFrom (FrameCodec.newPermissive handshakeMaxMessageSize) line.wire.up
      match Handshake.readHello site.cbor frame with
      | .error e => return ({ line with ended := some (.failed e), wire.up := up }, next)
      | .ok hello => return ({ line with accept := .checking hello, wire.up := up }, next)
    | _ => none
  | .reject => do
    guard (line.ended = none)
    match line.accept with
    | .checking hello =>
      guard (hello.version ≠ 1)
      let line ← line.answer site (.err (rejection hello.version)) (.rejecting hello)
      return (line, next)
    | _ => none
  | .refuse => do
    guard (line.ended = none ∧ line.wire.down.unsent = [])
    match line.accept with
    | .rejecting _ => return ({ line with ended := some (.failed (.rejected .versionMismatch)) }, next)
    | _ => none
  | .allocate => do
    guard (line.ended = none)
    match line.accept with
    | .checking hello =>
      guard (hello.version = 1)
      return ({ line with accept := .welcoming hello next }, next + 1)
    | _ => none
  | .welcome => do
    guard (line.ended = none)
    match line.accept with
    | .welcoming hello connId =>
      let line ← line.answer site (.ok (Handshake.welcome hello)) (.serving hello connId)
      return (line, next)
    | _ => none
  | .acceptFails error => do
    guard (line.ended = none)
    let error ← line.acceptFails error
    return ({ line with ended := some (.failed (.transport error)) }, next)

/-- The limit under which a thread of the connection works, if it runs. What is
written of a message stays behind when its writer fails. -/
def Line.limit (line : Line) : Action → Option UInt32
  | .send _ | .paneRead | .paneLeave =>
    match line.client with
    | .connected welcome => some welcome.maxMessageSize
    | _ => none
  | .driftUp _ =>
    match line.client with
    | .failed _ => none
    | _ => some handshakeMaxMessageSize
  | .driftDown _ => do
    guard (line.ended = none)
    return handshakeMaxMessageSize
  | .register registered =>
    match line.accept with
    | .serving hello _ => do
      guard (line.ended = none ∧ registered.provides = hello.registered.provides)
      return hello.maxMessageSize
    | _ => none
  | .greet | .serverRead | .serverLeave | .serverWrite =>
    match line.accept with
    | .serving hello _ => do
      guard (line.ended = none)
      return hello.maxMessageSize
    | _ => none

def connection (connId : Nat) : ConnectionId := ⟨UInt64.ofNat connId⟩

def Line.conn (line : Line) : ConnectionId := connection (line.accept.connId.getD 0)

def Site.threads (limit : UInt32) : Setting Stream := ⟨site.pc, site.accepts, fun _ => byteStream limit⟩

def State.act (x : State) (order : HashOrder) : Option State :=
  match x.queue with
  | [] => none
  | event :: queue =>
    let server := actorStep site.pc site.accepts x.server ⟨event, order⟩
    let attempts := server.attempts.drop x.server.attempts.length
    some { x with
      channels := fun c => x.channels c ++ enqueued attempts c
      queue
      past := x.past ++ [⟨event, order⟩]
      server }

def State.step (x : State) : Label → Option State
  | .handshake i step => do
    let (line, next) ← step.run site i (x.lines i) x.nextConnId
    return { x with lines := Function.update x.lines i line, nextConnId := next }
  | .wire i action => do
    let line := x.lines i
    let limit ← line.limit action
    let (w, events) ←
      action.run (site.threads limit) line.conn { line.wire with channel := x.channels line.conn }
    return { x with
      lines := Function.update x.lines i { line with wire := { w with channel := [] } }
      channels := Function.update x.channels line.conn w.channel
      queue := x.queue ++ events }
  | .act order => x.act site order

def machine : Machine State Label := ⟨(· = State.new), State.step site⟩

/-- All that a step can do. -/
inductive Took (i : Nat) (line : Line) (next : Nat) : Step → Line → Nat → Prop
  | speechless (hello : Handshake.Hello) (text : String) (hclient : line.client = .starting)
    (hhello : site.hellos i = some hello) (hcbor : site.cbor.helloIntoWriter hello = .error text) :
    Took i line next .sendHello { line with client := .failed (.transport (.invalidData text)) } next
  | hello (hello : Handshake.Hello) (bytes : Bytes) (hclient : line.client = .starting)
    (hhello : site.hellos i = some hello) (hcbor : site.cbor.helloIntoWriter hello = .ok bytes)
    (hidle : line.wire.up.unsent = []) :
    Took i line next .sendHello
      { line with client := .waiting, wire.up := ⟨frameBytes 0 bytes, line.wire.up.transit⟩ } next
  | decision (frame : Except FrameError Frame) (down : Stream) (hclient : line.client = .waiting)
    (hread : readFrom (FrameCodec.new handshakeMaxMessageSize) line.wire.down = some (frame, down)) :
    Took i line next .readDecision
      { line with client := ofDecision (readDecision site.cbor frame), wire.down := down } next
  | clientFails (error : IoError) (e : HandshakeError) (hclient : line.client = .waiting) :
    Took i line next (.clientFails error) { line with client := .failed (.transport e) } next
  | arrive (bytes : Bytes) (hhello : site.hellos i = none) :
    Took i line next (.arrive bytes)
      { line with wire.up.transit := line.wire.up.transit ++ bytes } next
  | unread (frame : Except FrameError Frame) (up : Stream) (e : HandshakeError)
    (hopen : line.ended = none) (haccept : line.accept = .reading)
    (hread : readFrom (FrameCodec.newPermissive handshakeMaxMessageSize) line.wire.up = some (frame, up))
    (hhello : readHello site.cbor frame = .error (.transport e)) :
    Took i line next .readHello { line with ended := some (.failed (.transport e)), wire.up := up } next
  | read (frame : Except FrameError Frame) (up : Stream) (hello : Handshake.Hello)
    (hopen : line.ended = none) (haccept : line.accept = .reading)
    (hread : readFrom (FrameCodec.newPermissive handshakeMaxMessageSize) line.wire.up = some (frame, up))
    (hhello : readHello site.cbor frame = .ok hello) :
    Took i line next .readHello { line with accept := .checking hello, wire.up := up } next
  | rejectPanics (hello : Handshake.Hello) (text : String) (haccept : line.accept = .checking hello)
    (hversion : hello.version ≠ 1)
    (hcbor : site.cbor.decisionIntoWriter (.err (rejection hello.version)) = .error text) :
    Took i line next .reject { line with ended := some .panicked } next
  | reject (hello : Handshake.Hello) (bytes : Bytes) (haccept : line.accept = .checking hello)
    (hversion : hello.version ≠ 1)
    (hcbor : site.cbor.decisionIntoWriter (.err (rejection hello.version)) = .ok bytes)
    (hidle : line.wire.down.unsent = []) :
    Took i line next .reject
      { line with
        accept := .rejecting hello
        wire.down := ⟨frameBytes 0 bytes, line.wire.down.transit⟩ } next
  | refuse (hello : Handshake.Hello) (haccept : line.accept = .rejecting hello) :
    Took i line next .refuse { line with ended := some (.failed (.rejected .versionMismatch)) } next
  | allocate (hello : Handshake.Hello) (haccept : line.accept = .checking hello)
    (hversion : hello.version = 1) :
    Took i line next .allocate { line with accept := .welcoming hello next } (next + 1)
  | welcomePanics (hello : Handshake.Hello) (connId : Nat) (text : String)
    (haccept : line.accept = .welcoming hello connId)
    (hcbor : site.cbor.decisionIntoWriter (.ok (Handshake.welcome hello)) = .error text) :
    Took i line next .welcome { line with ended := some .panicked } next
  | welcome (hello : Handshake.Hello) (connId : Nat) (bytes : Bytes)
    (haccept : line.accept = .welcoming hello connId)
    (hcbor : site.cbor.decisionIntoWriter (.ok (Handshake.welcome hello)) = .ok bytes)
    (hidle : line.wire.down.unsent = []) :
    Took i line next .welcome
      { line with
        accept := .serving hello connId
        wire.down := ⟨frameBytes 0 bytes, line.wire.down.transit⟩ } next
  | acceptFails (error : IoError) (e : HandshakeError) :
    Took i line next (.acceptFails error) { line with ended := some (.failed (.transport e)) } next

variable {site}

theorem writeControl_eq {payload : Bytes} {q q' : Stream} (h : writeControl payload q = some q') :
    q.unsent = [] ∧ q' = ⟨frameBytes 0 payload, q.transit⟩ := by
  obtain ⟨hidle, -, rfl⟩ := send_byteStream h
  exact ⟨hidle, rfl⟩

theorem answer_eq {line line' : Line} {decision : Decision} {accept : Accept}
    (h : line.answer site decision accept = some line') :
    (∃ text, site.cbor.decisionIntoWriter decision = .error text ∧
      line' = { line with ended := some .panicked }) ∨
    ∃ bytes, site.cbor.decisionIntoWriter decision = .ok bytes ∧ line.wire.down.unsent = [] ∧
      line' = { line with accept, wire.down := ⟨frameBytes 0 bytes, line.wire.down.transit⟩ } := by
  unfold Line.answer at h
  split at h
  · next text hcbor =>
    cases h
    exact .inl ⟨text, hcbor, rfl⟩
  · next bytes hcbor =>
    obtain ⟨down, hwrite, rfl⟩ := Option.map_eq_some_iff.mp h
    obtain ⟨hidle, rfl⟩ := writeControl_eq hwrite
    exact .inr ⟨bytes, hcbor, hidle, rfl⟩

theorem readHello_error {cbor : Cbor} {frame : Except FrameError Frame} {e : AcceptError}
    (h : readHello cbor frame = .error e) : ∃ e', e = .transport e' := by
  unfold readHello at h
  split at h
  · cases h
    exact ⟨_, rfl⟩
  · split at h
    · cases h
      exact ⟨_, rfl⟩
    · cases h

theorem took_of_run {i : Nat} {line line' : Line} {next next' : Nat} {step : Step}
    (h : step.run site i line next = some (line', next')) : Took site i line next step line' next' := by
  cases step with
  | sendHello =>
    obtain ⟨hclient, h⟩ := guard_bind h
    obtain ⟨hello, hhello, h⟩ := Option.bind_eq_some_iff.mp h
    cases hcbor : site.cbor.helloIntoWriter hello with
    | error text =>
      rw [hcbor] at h
      cases h
      exact .speechless hello text hclient hhello hcbor
    | ok bytes =>
      rw [hcbor] at h
      obtain ⟨up, hwrite, h⟩ := Option.bind_eq_some_iff.mp h
      obtain ⟨hidle, rfl⟩ := writeControl_eq hwrite
      cases h
      exact .hello hello bytes hclient hhello hcbor hidle
  | readDecision =>
    obtain ⟨⟨hclient, -⟩, h⟩ := guard_bind h
    obtain ⟨⟨frame, down⟩, hread, h⟩ := Option.bind_eq_some_iff.mp h
    cases h
    exact .decision frame down hclient hread
  | clientFails error =>
    obtain ⟨hclient, h⟩ := guard_bind h
    cases h
    exact .clientFails error _ hclient
  | arrive bytes =>
    obtain ⟨hhello, h⟩ := guard_bind h
    cases h
    exact .arrive bytes hhello
  | readHello =>
    obtain ⟨hopen, h⟩ := guard_bind h
    cases haccept : line.accept with
    | reading =>
      rw [haccept] at h
      obtain ⟨⟨frame, up⟩, hread, h⟩ := Option.bind_eq_some_iff.mp h
      cases hhello : readHello site.cbor frame with
      | error e =>
        obtain ⟨e', rfl⟩ := readHello_error hhello
        simp only [hhello] at h
        cases h
        rw [← haccept]
        exact .unread frame up e' hopen haccept hread hhello
      | ok hello =>
        simp only [hhello] at h
        cases h
        exact .read frame up hello hopen haccept hread hhello
    | _ =>
      rw [haccept] at h
      cases h
  | reject =>
    obtain ⟨-, h⟩ := guard_bind h
    cases haccept : line.accept with
    | checking hello =>
      rw [haccept] at h
      obtain ⟨hversion, h⟩ := guard_bind h
      obtain ⟨answered, hanswer, h⟩ := Option.bind_eq_some_iff.mp h
      cases h
      obtain ⟨text, hcbor, rfl⟩ | ⟨bytes, hcbor, hidle, rfl⟩ := answer_eq hanswer
      · exact .rejectPanics hello text haccept hversion hcbor
      · exact .reject hello bytes haccept hversion hcbor hidle
    | _ =>
      rw [haccept] at h
      cases h
  | refuse =>
    obtain ⟨-, h⟩ := guard_bind h
    cases haccept : line.accept with
    | rejecting hello =>
      rw [haccept] at h
      cases h
      rw [← haccept]
      exact .refuse hello haccept
    | _ =>
      rw [haccept] at h
      cases h
  | allocate =>
    obtain ⟨-, h⟩ := guard_bind h
    cases haccept : line.accept with
    | checking hello =>
      rw [haccept] at h
      obtain ⟨hversion, h⟩ := guard_bind h
      cases h
      exact .allocate hello haccept hversion
    | _ =>
      rw [haccept] at h
      cases h
  | welcome =>
    obtain ⟨-, h⟩ := guard_bind h
    cases haccept : line.accept with
    | welcoming hello connId =>
      rw [haccept] at h
      obtain ⟨answered, hanswer, h⟩ := Option.bind_eq_some_iff.mp h
      cases h
      obtain ⟨text, hcbor, rfl⟩ | ⟨bytes, hcbor, hidle, rfl⟩ := answer_eq hanswer
      · exact .welcomePanics hello connId text haccept hcbor
      · exact .welcome hello connId bytes haccept hcbor hidle
    | _ =>
      rw [haccept] at h
      cases h
  | acceptFails error =>
    obtain ⟨-, h⟩ := guard_bind h
    obtain ⟨e, -, h⟩ := Option.bind_eq_some_iff.mp h
    cases h
    exact .acceptFails error e

theorem act_eq {x y : State} {order : HashOrder} (h : x.act site order = some y) :
    y.lines = x.lines ∧ y.nextConnId = x.nextConnId := by
  unfold State.act at h
  split at h
  · cases h
  · cases h
    exact ⟨rfl, rfl⟩

theorem step_cases {x y : State} {label : Label} (h : x.step site label = some y) :
    (∃ i step line next, label = .handshake i step ∧
      Took site i (x.lines i) x.nextConnId step line next ∧
      y = { x with lines := Function.update x.lines i line, nextConnId := next }) ∨
    (∃ i action limit w events, label = .wire i action ∧ (x.lines i).limit action = some limit ∧
      action.run (site.threads limit) (x.lines i).conn
        { (x.lines i).wire with channel := x.channels (x.lines i).conn } = some (w, events) ∧
      y = { x with
        lines := Function.update x.lines i { x.lines i with wire := { w with channel := [] } }
        channels := Function.update x.channels (x.lines i).conn w.channel
        queue := x.queue ++ events }) ∨
    ∃ order, label = .act order ∧ x.act site order = some y := by
  cases label with
  | handshake i step =>
    obtain ⟨⟨line, next⟩, hrun, hy⟩ := Option.bind_eq_some_iff.mp h
    cases hy
    exact .inl ⟨i, step, line, next, rfl, took_of_run hrun, rfl⟩
  | wire i action =>
    obtain ⟨limit, hlimit, h⟩ := Option.bind_eq_some_iff.mp h
    obtain ⟨⟨w, events⟩, hrun, hy⟩ := Option.bind_eq_some_iff.mp h
    cases hy
    exact .inr (.inl ⟨i, action, limit, w, events, rfl, hlimit, hrun, rfl⟩)
  | act order => exact .inr (.inr ⟨order, rfl, h⟩)

theorem connId_took {i : Nat} {line line' : Line} {next next' : Nat} {step : Step}
    (h : Took site i line next step line' next') :
    (line'.accept.connId = line.accept.connId ∧ next' = next ∧
      (line.accept.connId ≠ none → line'.accept.hello = line.accept.hello)) ∨
      ∃ hello, line.accept = .checking hello ∧
        line' = { line with accept := .welcoming hello next } ∧ next' = next + 1 := by
  cases h with
  | read _ _ _ _ haccept | reject _ _ haccept =>
    left
    rw [haccept]
    exact ⟨rfl, rfl, absurd rfl⟩
  | allocate hello haccept hversion => exact .inr ⟨hello, haccept, rfl, rfl⟩
  | welcome hello connId bytes haccept hcbor hidle =>
    left
    rw [haccept]
    exact ⟨rfl, rfl, fun _ => rfl⟩
  | _ => exact .inl ⟨rfl, rfl, fun _ => rfl⟩

structure Numbered (x : State) : Prop where
  below : ∀ {i k}, (x.lines i).accept.connId = some k → 0 < k ∧ k < x.nextConnId
  distinct : ∀ {i j k}, (x.lines i).accept.connId = some k → (x.lines j).accept.connId = some k → i = j

theorem numbered_took {x : State} (h : Numbered x) (hnext : 0 < x.nextConnId) {i : Nat} {line : Line}
    {next : Nat} {step : Step} (htook : Took site i (x.lines i) x.nextConnId step line next) :
    Numbered { x with lines := Function.update x.lines i line, nextConnId := next } := by
  -- the id of every line, after the step
  have hold : ∀ {j k}, (Function.update x.lines i line j).accept.connId = some k →
      (x.lines j).accept.connId = some k ∨ (j = i ∧ k = x.nextConnId ∧ next = x.nextConnId + 1) := by
    intro j k hk
    by_cases hj : j = i
    · subst hj
      rw [Function.update_self] at hk
      obtain ⟨hsame, -, -⟩ | ⟨hello, -, rfl, hnext'⟩ := connId_took htook
      · exact .inl (hsame.symm.trans hk)
      · cases hk
        exact .inr ⟨rfl, rfl, hnext'⟩
    · rw [Function.update_of_ne hj] at hk
      exact .inl hk
  have hgrows : x.nextConnId ≤ next := by
    obtain ⟨-, rfl, -⟩ | ⟨hello, -, -, rfl⟩ := connId_took htook
    · exact Nat.le_refl _
    · exact Nat.le_succ _
  constructor
  · intro j k hk
    obtain hk | ⟨-, rfl, rfl⟩ := hold hk
    · exact ⟨(h.below hk).1, Nat.lt_of_lt_of_le (h.below hk).2 hgrows⟩
    · exact ⟨hnext, Nat.lt_succ_self _⟩
  · intro j l k hj hl
    obtain hj' | ⟨rfl, rfl, -⟩ := hold hj
    · obtain hl' | ⟨-, rfl, -⟩ := hold hl
      · exact h.distinct hj' hl'
      · exact absurd (h.below hj').2 (Nat.lt_irrefl _)
    · obtain hl' | ⟨rfl, -, -⟩ := hold hl
      · exact absurd (h.below hl').2 (Nat.lt_irrefl _)
      · rfl

theorem numbered_step {x y : State} {label : Label} (h : Numbered x ∧ 0 < x.nextConnId)
    (hstep : x.step site label = some y) : Numbered y ∧ 0 < y.nextConnId := by
  obtain ⟨hx, hnext⟩ := h
  obtain ⟨i, step, line, next, -, htook, rfl⟩ | ⟨i, action, limit, w, events, -, -, -, rfl⟩ |
    ⟨order, -, hact⟩ := step_cases hstep
  · refine ⟨numbered_took hx hnext htook, ?_⟩
    obtain ⟨-, rfl, -⟩ | ⟨hello, -, -, rfl⟩ := connId_took htook
    · exact hnext
    · exact Nat.succ_pos _
  · have hsame : ∀ j, (Function.update x.lines i
        { x.lines i with wire := { w with channel := [] } } j).accept = (x.lines j).accept := by
      intro j
      by_cases hj : j = i
      · subst hj
        rw [Function.update_self]
      · rw [Function.update_of_ne hj]
    refine ⟨⟨fun hk => ?_, fun hj hl => ?_⟩, hnext⟩
    · rw [hsame] at hk
      exact hx.below hk
    · rw [hsame] at hj hl
      exact hx.distinct hj hl
  · obtain ⟨hlines, hid⟩ := act_eq hact
    refine ⟨⟨fun hk => ?_, fun hj hl => ?_⟩, ?_⟩
    · rw [hlines] at hk
      rw [hid]
      exact hx.below hk
    · rw [hlines] at hj hl
      exact hx.distinct hj hl
    · rw [hid]
      exact hnext

theorem numbered_reachable {ok : State → Label → Prop} {x : State}
    (hx : (machine site).Reachable ok x) : Numbered x ∧ 0 < x.nextConnId := by
  refine hx.invariant (I := fun x => Numbered x ∧ 0 < x.nextConnId) ?_ ?_
  · rintro x rfl
    refine ⟨⟨fun hk => ?_, fun hk => ?_⟩, Nat.one_pos⟩ <;> cases hk
  · exact fun _ _ _ h _ hstep => numbered_step h hstep

end Pane.Accepting
