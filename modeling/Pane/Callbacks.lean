import Pane.Correlator

namespace Pane.Callbacks

open Pane.HashTable Pane.Messages

/-- Why a fallible send gave the message back. -/
inductive Backpressure
  | capExceeded
  | channelFull
  | connectionClosing
deriving DecidableEq, Repr

/-- A live binding to a service: the session the server assigned and the tag
of the protocol. -/
structure ServiceHandle where
  sessionId : UInt16
  tag : UInt8

/-- A `ReplyPort` is moved, never copied; the number says which one it is. -/
abbrev PortId := Nat

/-- What code without a dispatch context can do with the library. A message or
value is given by its bytes, `none` standing for a serialization failure. -/
inductive Effect
  | sendNotification (handle : ServiceHandle) (msg : Option Bytes)
  | dropHandle (handle : ServiceHandle)
  | cancel (token : Token)
  | reply (port : PortId) (value : Option Bytes)
  | dropPort (port : PortId)
  | subscriberSender (sessionId : UInt16)

/-- User code, as the library meets it: the state of the handler whenever the
library is called, and what happens after each answer. -/
inductive Script (E H : Type) where
  | ret (handler : H) (flow : Flow)
  | panic (handler : H)
  | act (handler : H) (effect : E) (next : Except Backpressure Unit → Script E H)

abbrev Callback (H : Type) := Script Effect H

/-- A one-shot entry for a pending request. `onReply` starts with the decoding
of the reply, which may panic. -/
structure DispatchEntry (H : Type) where
  onReply : Bytes → H → Callback H
  onFailed : H → Callback H

/-- An entry whose resolution goes to a `ReplyFuture`. Whether that future is
gone by the time of the resolution is foretold here. -/
structure AsyncDispatchEntry where
  futureDropped : Bool

/-- What a request handler can do: it also has a `DispatchCtx`. -/
inductive CtxEffect (H : Type)
  | plain (effect : Effect)
  | sendRequest (handle : ServiceHandle) (msg : Option Bytes) (entry : DispatchEntry H)
  | trySendRequest (handle : ServiceHandle) (msg : Option Bytes) (entry : DispatchEntry H)
  | insertAsync (sessionId : UInt16) (futureDropped : Bool)

abbrev RequestCallback (H : Type) := Script (CtxEffect H) H

/-- The methods of the trait `Handler`. -/
structure Handler (H : Type) where
  ready : H → Callback H
  closeRequested : H → Callback H
  disconnected : H → Callback H
  pulse : H → Callback H
  paneExited : Address → ExitReason → H → Callback H
  subscriberConnected : UInt16 → H → Callback H
  subscriberDisconnected : UInt16 → TeardownReason → H → Callback H

/-- The blanket `Handles<Lifecycle>` of every handler. -/
def Handler.receive {H : Type} (handler : Handler H) : LifecycleMessage → H → Callback H
  | .ready => handler.ready
  | .closeRequested => handler.closeRequested
  | .disconnected => handler.disconnected
  | .pulse => handler.pulse
  | .paneExited address reason => handler.paneExited address reason

/-- `make_service_receiver`: the tag it expects and the decoding of the message
followed by `receive`; `none` when the message does not decode. -/
structure ServiceReceiver (H : Type) where
  tag : UInt8
  receive : Bytes → Option (H → Callback H)

/-- Drop a payload with the wrong tag; a message that does not decode panics. -/
def ServiceReceiver.run {H : Type} (receiver : ServiceReceiver H) (payload : Bytes) (h : H) :
    Callback H :=
  match payload with
  | [] => .ret h .cont
  | first :: body =>
    if first = receiver.tag then
      match receiver.receive body with
      | some receive => receive h
      | none => .panic h
    else .ret h .cont

/-- `make_request_receiver`: as above, with the reply port for the answer. -/
structure RequestReceiver (H : Type) where
  tag : UInt8
  receiveRequest : Bytes → Option (PortId → H → RequestCallback H)

/-- The handler code for a payload, unless the tag or the message is wrong. -/
def RequestReceiver.accept {H : Type} (receiver : RequestReceiver H) :
    Bytes → Option (PortId → H → RequestCallback H)
  | [] => none
  | first :: body => if first = receiver.tag then receiver.receiveRequest body else none

/-- The tables of `ServiceDispatch`, frozen before the looper runs. -/
structure ServiceDispatch (H : Type) where
  receivers : Table UInt16 (ServiceReceiver H)
  requestReceivers : Table UInt16 (RequestReceiver H)

end Pane.Callbacks
