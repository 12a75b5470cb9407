import Pane.Looper

namespace Pane.Setup

open Pane.HashTable Pane.Messages Pane.Callbacks Pane.Unwinding Pane.LooperState
open Pane.CoreDispatch Pane.CoreRequest Pane.Looper
open Pane.Unwinding.Code (unwind gets modify)

variable {H : Type}

/-- The identity of a service. Only its uuid travels. -/
structure ServiceId where
  uuid : Uuid
  name : String
deriving DecidableEq

/-- A protocol `P`, with `Handles<P>` and `HandlesRequest<P>` for the handler: what
they do with the bytes of a message, unless it does not decode. -/
structure Protocol (H : Type) where
  serviceId : ServiceId
  receive : Bytes → Option (H → Callback H)
  receiveRequest : Bytes → Option (PortId → H → RequestCallback H)

def Protocol.tag (p : Protocol H) : UInt8 := Messages.tag p.serviceId.uuid

def makeServiceReceiver (p : Protocol H) : ServiceReceiver H := ⟨p.tag, p.receive⟩

def makeRequestReceiver (p : Protocol H) : RequestReceiver H := ⟨p.tag, p.receiveRequest⟩

/-- One entry of `Hello.provides`. -/
structure ServiceProvision where
  service : ServiceId
  version : UInt32
deriving DecidableEq

/-- A pane before its looper runs. `rx` is what the receiver is still going to yield
before it is closed, `sent` what went into the write channel. -/
structure PaneBuilder (H : Type) where
  rx : Option (List LooperMessage)
  sent : List ControlMessage
  bufferedMessages : List LooperMessage
  registeredServices : HashSet ServiceId
  providedServices : List ServiceProvision
  serviceDispatch : ServiceDispatch H

abbrev Build (H : Type) := Code (PaneBuilder H)

def PaneBuilder.new : PaneBuilder H := ⟨none, [], [], ∅, [], ⟨∅, ∅⟩⟩

/-- Advertise a protocol. To do so twice is a panic. -/
def serve (p : Protocol H) : Build H Unit := do
  if ← gets fun b => b.providedServices.any fun q => q.service.uuid = p.serviceId.uuid then unwind
  else modify fun b => { b with providedServices := b.providedServices ++ [⟨p.serviceId, 1⟩] }

/-- The handshake may fail; otherwise this is what the reader is going to deliver. -/
def connect (conn : Option (List LooperMessage)) : Build H Bool := do
  if ← gets (·.rx.isSome) then unwind
  else
    match conn with
    | none => return false
    | some rx =>
      modify fun b => { b with rx := some rx }
      return true

/-- What `open_service` makes of a message while it waits: the result to return
with, or nothing if the message is to be buffered. -/
def answer (service : Uuid) : LooperMessage → Option (Option UInt16)
  | .control (.interestAccepted serviceUuid sessionId _) =>
    if serviceUuid = service then some (some sessionId) else none
  | .control (.interestDeclined serviceUuid _) => if serviceUuid = service then some none else none
  | _ => none

/-- Block for the answer. A closed channel gives no handle. -/
def awaitAnswer (service : Uuid) : List LooperMessage → Build H (Option UInt16)
  | [] => do
    modify fun b => { b with rx := some [] }
    return none
  | msg :: rest =>
    match answer service msg with
    | some result => do
      modify fun b => { b with rx := some rest }
      return result
    | none => do
      modify fun b => { b with bufferedMessages := b.bufferedMessages ++ [msg] }
      awaitAnswer service rest

/-- Negotiate a subscription; `writable` says that the write channel is open. -/
def openServiceInner (writable : Bool) (p : Protocol H) : Build H (Option UInt16) := do
  if ← gets fun b => decide (p.serviceId ∈ b.registeredServices) then unwind
  else
    modify fun b => { b with registeredServices := b.registeredServices.insert p.serviceId () }
    match ← gets (·.rx) with
    | none => unwind
    | some rx =>
      if writable then
        modify fun b => { b with sent := b.sent ++ [.declareInterest p.serviceId.uuid 1] }
        awaitAnswer p.serviceId.uuid rx
      else return none

def register (sessionId : UInt16) (receiver : ServiceReceiver H) : Build H Unit := do
  if ← gets fun b => decide (sessionId ∈ b.serviceDispatch.receivers) then unwind
  else
    modify fun b =>
      { b with
        serviceDispatch.receivers := b.serviceDispatch.receivers.insert sessionId receiver }

def registerRequest (sessionId : UInt16) (receiver : RequestReceiver H) : Build H Unit := do
  if ← gets fun b => decide (sessionId ∈ b.serviceDispatch.requestReceivers) then unwind
  else
    modify fun b =>
      { b with
        serviceDispatch.requestReceivers :=
          b.serviceDispatch.requestReceivers.insert sessionId receiver }

def openService (writable : Bool) (p : Protocol H) : Build H (Option ServiceHandle) := do
  match ← openServiceInner writable p with
  | none => return none
  | some sessionId =>
    register sessionId (makeServiceReceiver p)
    return some ⟨sessionId, p.tag⟩

def openServiceWithRequests (writable : Bool) (p : Protocol H) : Build H (Option ServiceHandle) := do
  match ← openServiceInner writable p with
  | none => return none
  | some sessionId =>
    register sessionId (makeServiceReceiver p)
    registerRequest sessionId (makeRequestReceiver p)
    return some ⟨sessionId, p.tag⟩

/-- What is called of a builder before `run_with`. -/
inductive BuilderCall (H : Type)
  | serve (p : Protocol H)
  | connect (conn : Option (List LooperMessage))
  | openService (writable : Bool) (p : Protocol H)
  | openServiceWithRequests (writable : Bool) (p : Protocol H)

def BuilderCall.exec : BuilderCall H → Build H (Option ServiceHandle)
  | .serve p => do
    Setup.serve p
    return none
  | .connect conn => do
    let _ ← Setup.connect conn
    return none
  | .openService writable p => Setup.openService writable p
  | .openServiceWithRequests writable p => Setup.openServiceWithRequests writable p

/-- One call after the other, with the handles that they return. -/
def setup : List (BuilderCall H) → Build H (List ServiceHandle)
  | [] => return []
  | call :: calls => do
    let handle ← call.exec
    let handles ← setup calls
    return handle.toList ++ handles

variable (env : Env H)

/-- One of the messages that were buffered, before the loop is entered. -/
def drainMessage : LooperMessage → Loop H DispatchOutcome
  | .control (.lifecycle msg) => dispatchLifecycle env msg
  | .service sessionId payload => dispatchService env sessionId payload
  | .localRevoke sessionId => do
    sendControl env (.revokeInterest sessionId)
    return .cont
  | .control _ => return .cont
  | .newConnection _ => return .cont

def drainBuffered (msgs : List LooperMessage) : Loop H (Option ExitReason) :=
  untilExit (drainMessage env) msgs

/-- `run_with`: the buffered messages, then the loop. -/
def runWith (buffered : List LooperMessage) (setupFails : Bool) (ticks : List Tick) :
    Loop H (Option ExitReason) := do
  match ← drainBuffered env buffered with
  | some reason => return some reason
  | none => Looper.run env setupFails ticks

end Pane.Setup
