import Pane.CoreRequest

namespace Pane.Looper

open Pane.HashTable Pane.Messages Pane.Callbacks Pane.Unwinding Pane.LooperState
open Pane.CoreDispatch Pane.CoreRequest
open Pane.Unwinding.Code (unwind gets modify firstOf forEach)

/-- Events collected in one iteration of the event loop, sorted by phase. -/
structure Batch where
  syncRequests : List SyncRequest
  replies : List (UInt16 × Token × Bytes)
  failed : List (UInt16 × Token)
  teardowns : List (UInt16 × TeardownReason)
  paneExited : List (Address × ExitReason)
  subscriberConnected : List UInt16
  lifecycle : List LifecycleMessage
  requests : List (UInt16 × Token × Bytes)
  notifications : List (UInt16 × Bytes)
  revokedSessions : HashSet UInt16
  ctlWrites : List Bytes
  newConnection : Option Bool
  channelClosed : Bool

namespace Batch

def new : Batch := ⟨[], [], [], [], [], [], [], [], [], ∅, [], none, false⟩

def isEmpty (b : Batch) : Bool :=
  b.syncRequests.isEmpty && b.replies.isEmpty && b.failed.isEmpty && b.teardowns.isEmpty &&
    b.paneExited.isEmpty && b.subscriberConnected.isEmpty && b.lifecycle.isEmpty &&
    b.requests.isEmpty && b.notifications.isEmpty && b.ctlWrites.isEmpty &&
    b.newConnection.isNone && !b.channelClosed

/-- Whether the event loop must not block, since the last tick left messages
of phase 5. -/
def hasPendingPhase5 (b : Batch) : Bool := !b.requests.isEmpty || !b.notifications.isEmpty

/-- Sort a service frame into its phase. -/
def collectFrame (sessionId : UInt16) (frame : ServiceFrame) (b : Batch) : Batch :=
  match frame with
  | .reply token replyBytes => { b with replies := b.replies ++ [(sessionId, token, replyBytes)] }
  | .failed token => { b with failed := b.failed ++ [(sessionId, token)] }
  | .request token inner => { b with requests := b.requests ++ [(sessionId, token, inner)] }
  | .notification inner => { b with notifications := b.notifications ++ [(sessionId, inner)] }

/-- The first revocation of a session queues its wire frame. -/
def collectRevoke (pc : Postcard) (sessionId : UInt16) (b : Batch) : Batch :=
  if sessionId ∈ b.revokedSessions then b
  else
    { b with
      revokedSessions := b.revokedSessions.insert sessionId ()
      ctlWrites := b.ctlWrites ++ (pc.controlToAllocvec (.revokeInterest sessionId)).toList }

/-- Put a message into the bucket of its phase. -/
def collect (pc : Postcard) (b : Batch) : LooperMessage → Batch
  | .control (.lifecycle msg) => { b with lifecycle := b.lifecycle ++ [msg] }
  | .control (.serviceTeardown sessionId reason) =>
    { b with teardowns := b.teardowns ++ [(sessionId, reason)] }
  | .control (.paneExited address reason) =>
    { b with paneExited := b.paneExited ++ [(address, reason)] }
  | .control (.interestAccepted _ sessionId _) =>
    { b with subscriberConnected := b.subscriberConnected ++ [sessionId] }
  | .control _ => b
  | .localRevoke sessionId => b.collectRevoke pc sessionId
  | .newConnection registers => { b with newConnection := some registers }
  | .service sessionId payload =>
    match pc.frameFromBytes payload with
    | none => b
    | some frame => b.collectFrame sessionId frame

end Batch

/-- What the sources of the event loop deliver. -/
inductive Input
  | message (msg : LooperMessage)
  | sync (req : SyncRequest)
  | pulse
  | closed

def collectInput (pc : Postcard) (b : Batch) : Input → Batch
  | .message msg => b.collect pc msg
  | .sync req => { b with syncRequests := b.syncRequests ++ [req] }
  | .pulse => { b with lifecycle := b.lifecycle ++ [.pulse] }
  | .closed => { b with channelClosed := true }

/-- One iteration of the event loop: what its polls collect, whether the first
of them fails, and after how many dispatches the time of phase 5 is over. -/
structure Tick where
  inputs : List Input
  pollFails : Bool
  elapsed : Nat → Bool

/-- A turn of the loop in which inputs arrive and no timer has run out. -/
def Tick.of (inputs : List Input) : Tick := ⟨inputs, false, fun _ => false⟩

structure LoopState where
  batch : Batch
  sharedWriter : Bool

variable {H : Type} (env : Env H)

def untilExit {α : Type} (f : α → Loop H DispatchOutcome) (as : List α) :
    Loop H (Option ExitReason) :=
  firstOf (fun a => do
    match ← f a with
    | .exit reason => return some reason
    | .cont => return none) as

def lockEnqueues (f : HashSet UInt16 → HashSet UInt16) : Loop H Unit := do
  if ← gets (·.poisoned) then unwind
  else modify fun core => { core with subscriberEnqueues := f core.subscriberEnqueues }

/-- Fail what is outstanding for the session, then tell the handler. -/
def tearDown (sessionId : UInt16) (reason : TeardownReason) : Loop H DispatchOutcome := do
  dispatchTeardown env sessionId
  dispatchSubscriberDisconnected env sessionId reason

/-- An `Enqueue` waits for the handler and is closed if nobody claims it. -/
def connectSubscriber (sessionId : UInt16) : Loop H DispatchOutcome := do
  lockEnqueues fun map => map.insert sessionId ()
  let outcome ← dispatchSubscriberConnected env sessionId
  lockEnqueues fun map => map.erase sessionId
  return outcome

/-- Phases 1 to 3: resolve obligations, clean up sessions, framework control. -/
def frameworkPhases (b : Batch) : Loop H (Option ExitReason) :=
  firstOf id
    [untilExit (fun (sessionId, token, bytes) => dispatchReply env sessionId token bytes) b.replies,
      untilExit (fun (sessionId, token) => dispatchFailed env sessionId token) b.failed,
      untilExit (fun (sessionId, reason) => tearDown env sessionId reason) b.teardowns,
      untilExit (fun (address, reason) => dispatchPaneExited env address reason) b.paneExited,
      untilExit (connectSubscriber env) b.subscriberConnected,
      untilExit (dispatchLifecycle env) b.lifecycle]

/-- Most messages that phase 5 dispatches in one tick. -/
def defaultBatchMsgLimit : Nat := 64

/-- A loop of phase 5. Frames of revoked sessions are skipped for free; every
other one counts towards the limit. The rest waits for the next tick. -/
def serve {α : Type} (revoked : HashSet UInt16) (elapsed : Nat → Bool) (session : α → UInt16)
    (deliver : α → Loop H DispatchOutcome) :
    Nat → List α → Loop H (Except ExitReason (Nat × List α))
  | dispatched, [] => return .ok (dispatched, [])
  | dispatched, a :: rest =>
    if session a ∈ revoked then serve revoked elapsed session deliver dispatched rest
    else do
      match ← deliver a with
      | .exit reason => return .error reason
      | .cont =>
        if defaultBatchMsgLimit ≤ dispatched + 1 ∨ elapsed (dispatched + 1) then
          return .ok (dispatched + 1, rest)
        else serve revoked elapsed session deliver (dispatched + 1) rest

def Batch.remaining (b : Batch) (requests : List (UInt16 × Token × Bytes))
    (notifications : List (UInt16 × Bytes)) : Batch :=
  { Batch.new with
    requests, notifications
    revokedSessions := b.revokedSessions
    channelClosed := b.channelClosed }

/-- Phase 5, and the end of the connection when nothing is left over. -/
def inboundPhase (elapsed : Nat → Bool) (state : LoopState) :
    Loop H (Except ExitReason LoopState) := do
  let b := state.batch
  match ← serve b.revokedSessions elapsed (fun r => r.1)
      (fun (sessionId, token, inner) =>
        dispatchRequestWithContext env state.sharedWriter sessionId token inner) 0 b.requests with
  | .error reason => return .error reason
  | .ok (dispatched, requests) =>
    if requests ≠ [] then
      return .ok { state with batch := b.remaining requests b.notifications }
    else
      match ← serve b.revokedSessions elapsed (fun n => n.1)
          (fun (sessionId, inner) => dispatchNotification env sessionId inner)
          dispatched b.notifications with
      | .error reason => return .error reason
      | .ok (_, notifications) =>
        if notifications ≠ [] then
          return .ok { state with batch := b.remaining [] notifications }
        else if b.channelClosed then do
          let reason ← channelClosed env
          return .error reason
        else return .ok { state with batch := b.remaining [] [] }

/-- Dispatch a batch in phase order, up to the first exit. -/
def dispatchBatch (elapsed : Nat → Bool) (state : LoopState) :
    Loop H (Except ExitReason LoopState) := do
  let b := state.batch
  forEach (processSyncRequest env) b.syncRequests
  match ← frameworkPhases env b with
  | some reason => return .error reason
  | none =>
    let sharedWriter := state.sharedWriter || b.newConnection = some true
    forEach (fun payload => do let _ ← trySend env 0 payload) b.ctlWrites
    inboundPhase env elapsed { state with sharedWriter }

def infraError : Loop H ExitReason := do
  runDestruction env .infraError
  return .infraError

def tickStep (state : LoopState) (tick : Tick) : Loop H (Except ExitReason LoopState) := do
  if tick.pollFails then
    let reason ← infraError env
    return .error reason
  else
    let batch := tick.inputs.foldl (collectInput env.pc) state.batch
    if batch.isEmpty then return .ok { state with batch }
    else dispatchBatch env tick.elapsed { state with batch }

/-- The main loop of `Looper::run`. It has no result while it still runs. -/
def mainLoop : LoopState → List Tick → Loop H (Option ExitReason)
  | _, [] => return none
  | state, tick :: ticks => do
    match ← tickStep env state tick with
    | .error reason => return some reason
    | .ok state => mainLoop state ticks

/-- `Looper::run`; setting up the event loop may fail. -/
def run (setupFails : Bool) (ticks : List Tick) : Loop H (Option ExitReason) := do
  if setupFails then
    let reason ← infraError env
    return some reason
  else mainLoop env ⟨Batch.new, false⟩ ticks

end Pane.Looper
