import Pane.Callbacks
import Pane.Unwinding

namespace Pane.LooperState

open Pane.HashTable Pane.Messages Pane.Correlator Pane.Callbacks Pane.Unwinding
open Pane.Unwinding.Code (unwind gets modify catchUnwind forEach)

/-- A piece of user code and what it was given. -/
inductive Call
  | lifecycle (msg : LifecycleMessage)
  | disconnected
  | paneExited (address : Address) (reason : ExitReason)
  | subscriberConnected (sessionId : UInt16)
  | subscriberDisconnected (sessionId : UInt16) (reason : TeardownReason)
  | receive (sessionId : UInt16) (payload : Bytes)
  | receiveRequest (sessionId : UInt16) (token : Token) (payload : Bytes)
  | onReply (token : Token) (payload : Bytes)
  | onFailed (token : Token)
deriving DecidableEq

/-- What can be observed of a looper, in the order in which it happens. -/
inductive Event
  /-- A request or notification goes to the service dispatch table. -/
  | handed (sessionId : UInt16) (frame : ServiceFrame)
  /-- User code starts. -/
  | called (call : Call)
  /-- It panics while these tokens are outstanding. -/
  | panicked (call : Call) (outstanding : List Token)
  | installed (token : Token) (sessionId : UInt16)
  | installedAsync (token : Token) (sessionId : UInt16)
  /-- The frame of an installed request is in the write queue. -/
  | queued (token : Token)
  | cancelled (token : Token)
  /-- The entry of a `ReplyFuture` is resolved, with a reply or an error. -/
  | resolved (token : Token)
  | rejected (token : Token)
  /-- The `ReplyFuture` of an entry was gone, so that resolving it panics. -/
  | futureGone (token : Token)
  /-- `Dispatch::clear` drops an entry that nothing has resolved. -/
  | discarded (token : Token)
  /-- A frame enters the write queue, or is refused by it. -/
  | sent (service : UInt16) (payload : Bytes)
  | refused (service : UInt16) (payload : Bytes)
  | portOpened (port : PortId) (sessionId : UInt16) (token : Token) (payload : Bytes)
  | portAnswered (port : PortId) (value : Bytes)
  /-- The value for an answer does not serialize, and its port is gone. -/
  | replyLost (sessionId : UInt16) (token : Token)
  /-- `subscriber_sender` finds no `Enqueue` for the session. -/
  | unclaimable (call : Call) (sessionId : UInt16)
deriving DecidableEq

/-- What the trace leaves out. -/
inductive Note
  /-- User code returns. -/
  | returned (call : Call) (flow : Flow)
  /-- A failure of the session layer sets out to fail these tokens. -/
  | cascading (tokens : List Token)
  /-- The destruction sequence starts. -/
  | destroying (reason : ExitReason)
  /-- The next frame does not go through the channel but straight into the
  buffer of the connection. -/
  | direct
deriving DecidableEq

/-- The handler-typed store of pending requests. -/
structure Dispatch (H : Type) where
  entries : Table (PeerScope × Token) (DispatchEntry H)
  asyncEntries : Table (PeerScope × Token) AsyncDispatchEntry

/-- `LooperCore`, with the map of subscriber `Enqueue`s that its messenger holds.
The last three fields are not in the source: `trace` records what happens, `notes`
the rest of it, each with the number of events before it, and `cascaded` the
failure closures that a cascade sets out to run. -/
structure LooperCore (H : Type) where
  handler : H
  dispatch : Dispatch H
  activeSession : ActiveSession
  primaryConnection : PeerScope
  exitTx : List ExitReason
  exited : Bool
  subscriberEnqueues : HashSet UInt16
  poisoned : Bool
  ports : Table PortId (UInt16 × Token)
  trace : List Event
  notes : List (Nat × Note)
  cascaded : List (DispatchEntry H ⊕ AsyncDispatchEntry)

/-- The fixed surroundings of a looper. The answers of the write channel and
the iteration orders of the correlator are given for every point in time. -/
structure Env (H : Type) where
  pc : Postcard
  trySend : Nat → Except Backpressure Unit
  order : Nat → TokenOrder
  handler : Handler H
  serviceDispatch : ServiceDispatch H

inductive DispatchOutcome
  | cont
  | exit (reason : ExitReason)
deriving DecidableEq

variable {H : Type}

def LooperCore.new (handler : H) (primaryConnection : PeerScope) : LooperCore H where
  handler := handler
  dispatch := ⟨∅, ∅⟩
  activeSession := ActiveSession.new primaryConnection 0
  primaryConnection := primaryConnection
  exitTx := []
  exited := false
  subscriberEnqueues := ∅
  poisoned := false
  ports := ∅
  trace := []
  notes := []
  cascaded := []

abbrev Loop (H : Type) := Code (LooperCore H)

def LooperCore.log (e : Event) (core : LooperCore H) : LooperCore H :=
  { core with trace := core.trace ++ [e] }

def log (e : Event) : Loop H Unit := modify (·.log e)

def LooperCore.note (n : Note) (core : LooperCore H) : LooperCore H :=
  { core with notes := core.notes ++ [(core.trace.length, n)] }

variable (env : Env H)

/-- `SyncSender::try_send` on the write channel. -/
def trySend (service : UInt16) (payload : Bytes) : Loop H (Except Backpressure Unit) := do
  let answer ← gets fun core => env.trySend core.trace.length
  match answer with
  | .ok () => log (.sent service payload)
  | .error _ => log (.refused service payload)
  return answer

def sendControl (msg : ControlMessage) : Loop H Unit :=
  match env.pc.controlToAllocvec msg with
  | some bytes => do let _ ← trySend env 0 bytes
  | none => pure ()

/-- What `wire_reply_port` wraps up: the port is used up before its value is
serialized. A port that was used before cannot be named again. -/
def usePort (port : PortId) (send : UInt16 → Token → Loop H Unit) : Loop H Unit := do
  let found ← gets fun core => core.ports.lookup port
  match found with
  | none => pure ()
  | some (sessionId, token) =>
    modify fun core => { core with ports := core.ports.erase port }
    send sessionId token

def sendFrame (sessionId : UInt16) (frame : ServiceFrame) : Loop H (Except Backpressure Unit) :=
  match env.pc.frameToAllocvec frame with
  | some bytes => trySend env sessionId bytes
  | none => unwind

/-- `Messenger::subscriber_sender`. The guard of the map is held while the
missing `Enqueue` is reported, so the panic poisons the map. -/
def subscriberSender (call : Call) (sessionId : UInt16) : Loop H Unit := do
  if ← gets (·.poisoned) then unwind
  else if ← gets fun core => decide (sessionId ∈ core.subscriberEnqueues) then
    modify fun core => { core with subscriberEnqueues := core.subscriberEnqueues.erase sessionId }
  else
    modify fun core => { core.log (.unclaimable call sessionId) with poisoned := true }
    unwind

def perform (call : Call) : Effect → Loop H (Except Backpressure Unit)
  | .sendNotification handle (some msg) =>
    sendFrame env handle.sessionId (.notification (handle.tag :: msg))
  | .sendNotification _ none => unwind
  | .dropHandle handle => do
    sendControl env (.revokeInterest handle.sessionId)
    return .ok ()
  | .cancel token => do
    sendControl env (.cancel token)
    return .ok ()
  | .reply port value => do
    usePort port fun sessionId token =>
      match value with
      | some value => do
        log (.portAnswered port value)
        let _ ← sendFrame env sessionId (.reply token value)
      | none => do
        log (.replyLost sessionId token)
        unwind
    return .ok ()
  | .dropPort port => do
    usePort port fun sessionId token => do
      let _ ← sendFrame env sessionId (.failed token)
    return .ok ()
  | .subscriberSender sessionId => do
    subscriberSender call sessionId
    return .ok ()

def runScript {E : Type} (perform : E → Loop H (Except Backpressure Unit)) :
    Script E H → Loop H Flow
  | .ret handler flow => do
    modify fun core => { core with handler }
    return flow
  | .panic handler => do
    modify fun core => { core with handler }
    unwind
  | .act handler effect next => do
    modify fun core => { core with handler }
    let answer ← perform effect
    runScript perform (next answer)

def LooperCore.outstanding (core : LooperCore H) : List Token :=
  core.activeSession.correlator.tokenSessions.keys.filter fun token =>
    decide ((core.primaryConnection, token) ∉ core.dispatch.asyncEntries)

def enter {E : Type} (perform : E → Loop H (Except Backpressure Unit)) (call : Call)
    (code : H → Script E H) : Loop H Flow := do
  log (.called call)
  let handler ← gets (·.handler)
  match ← catchUnwind (runScript perform (code handler)) with
  | some flow =>
    modify (·.note (.returned call flow))
    return flow
  | none =>
    modify fun core => core.log (.panicked call core.outstanding)
    unwind

def invoke (call : Call) (code : H → Callback H) : Loop H Flow :=
  enter (perform env call) call code

end Pane.LooperState
