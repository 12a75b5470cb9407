import Pane.LooperState

namespace Pane.CoreDispatch

open Pane.HashTable Pane.Messages Pane.Correlator Pane.Callbacks Pane.Unwinding Pane.LooperState
open Pane.Unwinding.Code (unwind gets modify catchUnwind forEach)

variable {H : Type} (env : Env H)

def removeEntry (key : PeerScope × Token) (core : LooperCore H) : LooperCore H :=
  { core with dispatch.entries := core.dispatch.entries.erase key }

def removeAsync (key : PeerScope × Token) (core : LooperCore H) : LooperCore H :=
  { core with dispatch.asyncEntries := core.dispatch.asyncEntries.erase key }

/-- Send through the channel of a `ReplyFuture`, which panics when it is gone. -/
def settle (token : Token) (entry : AsyncDispatchEntry) (event : Event) : Loop H Unit :=
  if entry.futureDropped then do
    log (.futureGone token)
    unwind
  else log event

/-- Consume an entry: a callback entry by one of its closures, an async entry
by `event`. There is no result if the token has no entry. -/
def fire (token : Token) (call : Call) (code : DispatchEntry H → H → Callback H) (event : Event) :
    Loop H (Option Flow) := do
  let key ← gets fun core => (core.primaryConnection, token)
  match ← gets fun core => core.dispatch.entries.lookup key with
  | some entry =>
    modify (removeEntry key)
    let flow ← invoke env call (code entry)
    return some flow
  | none =>
    match ← gets fun core => core.dispatch.asyncEntries.lookup key with
    | some entry =>
      modify (removeAsync key)
      settle token entry event
      return some .cont
    | none => return none

def fireReply (token : Token) (payload : Bytes) : Loop H (Option Flow) :=
  fire env token (.onReply token payload) (fun entry => entry.onReply payload) (.resolved token)

def fireFailed (token : Token) : Loop H (Option Flow) :=
  fire env token (.onFailed token) DispatchEntry.onFailed (.rejected token)

/-- Take an entry out without a callback. -/
def cancel (token : Token) : Loop H Bool := do
  let key ← gets fun core => (core.primaryConnection, token)
  if ← gets fun core => decide (key ∈ core.dispatch.entries) then
    modify fun core => (removeEntry key core).log (.cancelled token)
    return true
  else
    match ← gets fun core => core.dispatch.asyncEntries.lookup key with
    | some entry =>
      modify (removeAsync key)
      settle token entry (.rejected token)
      return true
    | none => return false

/-- Fail a token. What its closure wants to do next is discarded. -/
def failToken (token : Token) : Loop H Unit := do
  let _ ← fireFailed env token

def failTokens (tokens : List Token) : Loop H Unit := forEach (failToken env) tokens

/-- Drop the remaining entries without callbacks. -/
def clear : Loop H Unit :=
  modify fun core =>
    { core with
      dispatch := ⟨∅, ∅⟩
      trace := core.trace ++
        (core.dispatch.entries.keys ++ core.dispatch.asyncEntries.keys).map (.discarded ·.2) }

def LooperCore.doomed (core : LooperCore H) (keys : List (PeerScope × Token)) :
    List (DispatchEntry H ⊕ AsyncDispatchEntry) :=
  keys.filterMap fun key =>
    match core.dispatch.entries.lookup key with
    | some entry => some (.inl entry)
    | none => (core.dispatch.asyncEntries.lookup key).map .inr

def cascade (failure : TokenOrder → ActiveSession → List (PeerScope × Token) × ActiveSession) :
    Loop H Unit := do
  let teardown ← gets fun core => failure (env.order core.trace.length) core.activeSession
  modify fun core =>
    { core.note (.cascading (teardown.1.map Prod.snd)) with
      activeSession := teardown.2
      cascaded := core.cascaded ++ LooperCore.doomed core teardown.1 }
  failTokens env (teardown.1.map Prod.snd)

/-- The destruction sequence, but for the drop of the handler at its end. -/
def runDestruction (reason : ExitReason) : Loop H Unit := do
  modify fun core => { core.note (.destroying reason) with exited := true }
  cascade env ActiveSession.cascadeConnectionFailure
  clear
  modify fun core => { core with exitTx := core.exitTx ++ [reason] }

def flowToOutcome : Flow → Loop H DispatchOutcome
  | .cont => return .cont
  | .stop => do
    runDestruction env .graceful
    return .exit .graceful

/-- The caller's part of `catch_unwind`: a panic starts the destruction. -/
def failed : Loop H DispatchOutcome := do
  runDestruction env .failed
  return .exit .failed

/-- Dispatch a handler callback. -/
def dispatch (call : Call) (callback : H → Callback H) : Loop H DispatchOutcome := do
  if ← gets (·.exited) then return .exit .failed
  else
    match ← catchUnwind (invoke env call callback) with
    | some flow => flowToOutcome env flow
    | none => failed env

/-- The connection is lost. When `disconnected` asks to stop, the reason that
was already sent is corrected by a second one. -/
def connectionLost : Loop H DispatchOutcome := do
  match ← dispatch env .disconnected env.handler.disconnected with
  | .exit .graceful =>
    modify fun core => { core with exitTx := core.exitTx ++ [.disconnected] }
    return .exit .disconnected
  | outcome => return outcome

def dispatchLifecycle (msg : LifecycleMessage) : Loop H DispatchOutcome :=
  dispatch env (.lifecycle msg) (env.handler.receive msg)

def dispatchSubscriberConnected (sessionId : UInt16) : Loop H DispatchOutcome :=
  dispatch env (.subscriberConnected sessionId) (env.handler.subscriberConnected sessionId)

def dispatchSubscriberDisconnected (sessionId : UInt16) (reason : TeardownReason) :
    Loop H DispatchOutcome :=
  dispatch env (.subscriberDisconnected sessionId reason)
    (env.handler.subscriberDisconnected sessionId reason)

def dispatchPaneExited (address : Address) (reason : ExitReason) : Loop H DispatchOutcome :=
  dispatch env (.paneExited address reason) (env.handler.paneExited address reason)

/-- Fail what is outstanding for a session that was torn down. -/
def dispatchTeardown (sessionId : UInt16) : Loop H Unit :=
  cascade env fun order => ActiveSession.cascadeSessionFailure order sessionId

/-- What a `Reply` and a `Failed` have in common: fire the entry inside
`catch_unwind` and resolve the token unless the closure panicked. -/
def dispatchResolution (token : Token) (fire : Loop H (Option Flow)) : Loop H DispatchOutcome := do
  match ← catchUnwind fire with
  | some (some flow) =>
    modify fun core => { core with activeSession := core.activeSession.recordResolution token }
    flowToOutcome env flow
  | some none => return .cont
  | none => failed env

def dispatchReply (_sessionId : UInt16) (token : Token) (replyBytes : Bytes) :
    Loop H DispatchOutcome :=
  dispatchResolution env token (fireReply env token replyBytes)

def dispatchFailed (_sessionId : UInt16) (token : Token) : Loop H DispatchOutcome :=
  dispatchResolution env token (fireFailed env token)

def dispatchNotification (sessionId : UInt16) (inner : Bytes) : Loop H DispatchOutcome := do
  log (.handed sessionId (.notification inner))
  match env.serviceDispatch.receivers.lookup sessionId with
  | none => return .cont
  | some receiver =>
    match ← catchUnwind (invoke env (.receive sessionId inner) (receiver.run inner)) with
    | some flow => flowToOutcome env flow
    | none => failed env

end Pane.CoreDispatch
