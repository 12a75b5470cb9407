import Pane.CoreDispatch

namespace Pane.CoreRequest

open Pane.HashTable Pane.Messages Pane.Correlator Pane.Callbacks Pane.Unwinding Pane.LooperState
open Pane.CoreDispatch
open Pane.Unwinding.Code (unwind gets modify catchUnwind)

variable {H : Type} (env : Env H)

def allocateToken (sessionId : UInt16) : Loop H Token := do
  let (token, activeSession) ← gets fun core => core.activeSession.allocateToken sessionId
  modify fun core => { core with activeSession }
  return token

/-- `DispatchCtx::insert`: the entry is there before anything is sent. -/
def insert (sessionId : UInt16) (entry : DispatchEntry H) : Loop H Token := do
  let token ← allocateToken sessionId
  modify fun core =>
    { core.log (.installed token sessionId) with
      dispatch.entries := core.dispatch.entries.insert (core.primaryConnection, token) entry }
  return token

def insertAsync (sessionId : UInt16) (futureDropped : Bool) : Loop H Token := do
  let token ← allocateToken sessionId
  modify fun core =>
    { core.log (.installedAsync token sessionId) with
      dispatch.asyncEntries :=
        core.dispatch.asyncEntries.insert (core.primaryConnection, token) ⟨futureDropped⟩ }
  return token

def recordResolution (token : Token) : Loop H Unit :=
  modify fun core => { core with activeSession := core.activeSession.recordResolution token }

/-- `DispatchCtx::cancel`: roll an entry back when the wire send fails. -/
def ctxCancel (token : Token) : Loop H Unit := do
  if ← cancel token then recordResolution token

/-- Serialize a request and put it into the write queue: directly if the looper
has a shared writer, else through the channel, which may refuse it. -/
def sendRequestFrame (direct : Bool) (sessionId : UInt16) (token : Token) (payload : Bytes) :
    Loop H (Except Backpressure Unit) :=
  match env.pc.frameToAllocvec (.request token payload) with
  | none => unwind
  | some outer => do
    let answer ← if direct then do
        modify (·.note .direct)
        log (.sent sessionId outer)
        pure (.ok ())
      else trySend env sessionId outer
    match answer with
    | .ok () => log (.queued token)
    | .error _ => pure ()
    return answer

/-- The common part of `send_request` and `try_send_request`: entry first, then
the frame, and the entry is rolled back if the frame is refused. -/
def installAndSend (direct : Bool) (handle : ServiceHandle) (msg : Option Bytes)
    (entry : DispatchEntry H) : Loop H (Except Backpressure Unit) := do
  let token ← insert handle.sessionId entry
  match msg with
  | none => unwind
  | some msg =>
    match ← sendRequestFrame env direct handle.sessionId token (handle.tag :: msg) with
    | .ok () => return .ok ()
    | .error reason =>
      ctxCancel token
      return .error reason

/-- Exceeding the negotiated cap is a panic here. -/
def sendRequest (direct : Bool) (handle : ServiceHandle) (msg : Option Bytes)
    (entry : DispatchEntry H) : Loop H Unit := do
  if ← gets (·.activeSession.wouldExceedCap) then unwind
  else
    let _ ← installAndSend env direct handle msg entry

def trySendRequest (direct : Bool) (handle : ServiceHandle) (msg : Option Bytes)
    (entry : DispatchEntry H) : Loop H (Except Backpressure Unit) := do
  if ← gets (·.activeSession.wouldExceedCap) then return .error .capExceeded
  else installAndSend env direct handle msg entry

def performCtx (direct : Bool) (call : Call) : CtxEffect H → Loop H (Except Backpressure Unit)
  | .plain effect => perform env call effect
  | .sendRequest handle msg entry => do
    sendRequest env direct handle msg entry
    return .ok ()
  | .trySendRequest handle msg entry => trySendRequest env direct handle msg entry
  | .insertAsync sessionId futureDropped => do
    let _ ← insertAsync sessionId futureDropped
    return .ok ()

/-- Tell the requester that nobody will answer; best effort. -/
def sendFailed (sessionId : UInt16) (token : Token) : Loop H Unit :=
  match env.pc.frameToAllocvec (.failed token) with
  | some bytes => do let _ ← trySend env sessionId bytes
  | none => pure ()

def openPort (sessionId : UInt16) (token : Token) (payload : Bytes) : Loop H PortId := do
  let port ← gets (·.trace.length)
  modify fun core =>
    { core.log (.portOpened port sessionId token payload) with
      ports := core.ports.insert port (sessionId, token) }
  return port

/-- `ServiceDispatch::dispatch_request`. A request that no receiver accepts is
answered with `Failed`. -/
def serveRequest (direct : Bool) (sessionId : UInt16) (token : Token) (inner : Bytes) :
    Loop H Flow :=
  match (env.serviceDispatch.requestReceivers.lookup sessionId).bind (·.accept inner) with
  | none => do
    sendFailed env sessionId token
    return .cont
  | some code => do
    let port ← openPort sessionId token inner
    let call := .receiveRequest sessionId token inner
    enter (performCtx env direct call) call (code port)

/-- Dispatch a request; `direct` says that the looper has a shared writer. -/
def dispatchRequestWithContext (direct : Bool) (sessionId : UInt16) (token : Token)
    (inner : Bytes) : Loop H DispatchOutcome := do
  log (.handed sessionId (.request token inner))
  match ← catchUnwind (serveRequest env direct sessionId token inner) with
  | some flow => flowToOutcome env flow
  | none => failed env

def dispatchService (sessionId : UInt16) (payload : Bytes) : Loop H DispatchOutcome :=
  match env.pc.frameFromBytes payload with
  | none => return .cont
  | some (.notification inner) => dispatchNotification env sessionId inner
  | some (.request token inner) => dispatchRequestWithContext env false sessionId token inner
  | some (.reply token replyBytes) => dispatchReply env sessionId token replyBytes
  | some (.failed token) => dispatchFailed env sessionId token

/-- A request of a thread that waits in `send_and_wait`. -/
structure SyncRequest where
  sessionId : UInt16
  wirePayload : Bytes

/-- The entry of a blocked caller: it only passes the result on. -/
def SyncRequest.entry : DispatchEntry H where
  onReply := fun _ h => .ret h .cont
  onFailed := fun h => .ret h .cont

def processSyncRequest (req : SyncRequest) : Loop H Unit := do
  let token ← insert req.sessionId SyncRequest.entry
  match ← sendRequestFrame env false req.sessionId token req.wirePayload with
  | .ok () => pure ()
  | .error _ =>
    let _ ← cancel token
    recordResolution token

/-- What the looper thread reads from its channel. -/
inductive LooperMessage
  | control (msg : ControlMessage)
  | service (sessionId : UInt16) (payload : Bytes)
  | localRevoke (sessionId : UInt16)
  | newConnection (registers : Bool)

/-- One message in the loop of `LooperCore::run`. -/
def handle : LooperMessage → Loop H DispatchOutcome
  | .control (.lifecycle msg) => dispatchLifecycle env msg
  | .control (.serviceTeardown sessionId _) => do
    dispatchTeardown env sessionId
    return .cont
  | .control (.paneExited address reason) => dispatchPaneExited env address reason
  | .control _ => return .cont
  | .localRevoke sessionId => do
    sendControl env (.revokeInterest sessionId)
    return .cont
  | .newConnection _ => return .cont
  | .service sessionId payload => dispatchService env sessionId payload

/-- The channel is closed. A handler that wants to go on is overruled. -/
def channelClosed : Loop H ExitReason := do
  match ← connectionLost env with
  | .exit reason => return reason
  | .cont =>
    runDestruction env .disconnected
    return .disconnected

/-- `LooperCore::run` on all messages that arrive before the channel closes. -/
def run : List LooperMessage → Loop H ExitReason
  | [] => channelClosed env
  | msg :: msgs => do
    match ← handle env msg with
    | .exit reason => return reason
    | .cont => run msgs

end Pane.CoreRequest
