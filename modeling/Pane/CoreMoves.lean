import Pane.CoreRuns

namespace Pane.CoreMoves

open Pane.HashTable Pane.Messages Pane.Callbacks Pane.Unwinding Pane.LooperState
open Pane.CoreDispatch Pane.CoreRequest Pane.Looper Pane.CoreRuns

variable {H : Type} {env : Env H} {D : LooperCore H → LooperCore H → Prop} [Std.Refl D]
  [Trans D D D]

-- The operations of a core are calls into user code and what follows them. A relation
-- that the calls and the destruction sequence keep is kept by the operations.
section Destruction

variable (hdestroy : ∀ reason, Moves D D (runDestruction env reason))
include hdestroy

theorem moves_flowToOutcome (flow : Flow) : Moves D D (flowToOutcome env flow) := by
  cases flow with
  | cont => exact Moves.pure _
  | stop => exact Moves.bind (hdestroy _) fun _ => Moves.pure _

theorem moves_failed : Moves D D (failed env) :=
  Moves.bind (hdestroy _) fun _ => Moves.pure _

theorem moves_guarded {m : Loop H Flow} (hm : Moves D D m) :
    Moves D D (do
      match ← Code.catchUnwind m with
      | some flow => flowToOutcome env flow
      | none => failed env) := by
  refine Moves.bind (Moves.catchUnwind hm) fun result => ?_
  cases result with
  | none => exact moves_failed hdestroy
  | some flow => exact moves_flowToOutcome hdestroy flow

theorem moves_dispatch {call : Call} {callback : H → Callback H}
    (hcall : Moves D D (invoke env call callback)) : Moves D D (dispatch env call callback) := by
  refine Moves.bind (Moves.gets _) fun exited => ?_
  split
  · exact Moves.pure _
  · exact moves_guarded hdestroy hcall

theorem moves_channelClosed
    (hcall : Moves D D (invoke env .disconnected env.handler.disconnected))
    (hexit : ∀ core, D core { core with exitTx := core.exitTx ++ [.disconnected] }) :
    Moves D D (channelClosed env) := by
  refine Moves.bind (Moves.bind (moves_dispatch hdestroy hcall) fun outcome => ?_)
    fun outcome => ?_
  · split
    · exact Moves.bind (Moves.modify hexit) fun _ => Moves.pure _
    · exact Moves.pure _
  · cases outcome with
    | exit reason => exact Moves.pure _
    | cont => exact Moves.bind (hdestroy _) fun _ => Moves.pure _

theorem moves_infraError : Moves D D (infraError env) :=
  Moves.bind (hdestroy _) fun _ => Moves.pure _

theorem moves_dispatchResolution {token : Token} {fire : Loop H (Option Flow)}
    (hfire : Moves D D fire) (hresolution : Moves D D (recordResolution token)) :
    Moves D D (dispatchResolution env token fire) := by
  refine Moves.bind (Moves.catchUnwind hfire) fun result => ?_
  cases result with
  | none => exact moves_failed hdestroy
  | some flow =>
    cases flow with
    | none => exact Moves.pure _
    | some flow => exact Moves.bind hresolution fun _ => moves_flowToOutcome hdestroy flow

theorem moves_dispatchNotification {sessionId : UInt16} {inner : Bytes}
    (hhanded : Moves D D (log (.handed sessionId (.notification inner))))
    (hcall : ∀ code, Moves D D (invoke env (.receive sessionId inner) code)) :
    Moves D D (dispatchNotification env sessionId inner) := by
  refine Moves.bind hhanded fun _ => ?_
  split
  · exact Moves.pure _
  · exact moves_guarded hdestroy (hcall _)

theorem moves_dispatchRequestWithContext {direct : Bool} {sessionId : UInt16} {token : Token}
    {inner : Bytes} (hhanded : Moves D D (log (.handed sessionId (.request token inner))))
    (hserve : Moves D D (serveRequest env direct sessionId token inner)) :
    Moves D D (dispatchRequestWithContext env direct sessionId token inner) :=
  Moves.bind hhanded fun _ => moves_guarded hdestroy hserve

theorem moves_connectSubscriber {sessionId : UInt16}
    (hlock : ∀ f, Moves D D (lockEnqueues (H := H) f))
    (hcall : ∀ code, Moves D D (invoke env (.subscriberConnected sessionId) code)) :
    Moves D D (connectSubscriber env sessionId) := by
  refine Moves.bind (hlock _) fun _ => ?_
  refine Moves.bind (moves_dispatch hdestroy (hcall _)) fun _ => ?_
  exact Moves.bind (hlock _) fun _ => Moves.pure _

end Destruction

theorem moves_fire {token : Token} {call : Call} {code : DispatchEntry H → H → Callback H}
    {event : Event} (hentry : ∀ key core, D core (removeEntry key core))
    (hasync : ∀ key core, D core (removeAsync key core))
    (hcall : ∀ code, Moves D D (invoke env call code))
    (hsettle : ∀ entry, Moves D D (settle (H := H) token entry event)) :
    Moves D D (fire env token call code event) := by
  refine Moves.bind (Moves.gets _) fun key => Moves.bind (Moves.gets _) fun entry => ?_
  cases entry with
  | some entry =>
    refine Moves.bind (Moves.modify (hentry key)) fun _ => ?_
    exact Moves.bind (hcall _) fun _ => Moves.pure _
  | none =>
    refine Moves.bind (Moves.gets _) fun entry => ?_
    cases entry with
    | none => exact Moves.pure _
    | some entry =>
      refine Moves.bind (Moves.modify (hasync key)) fun _ => ?_
      exact Moves.bind (hsettle entry) fun _ => Moves.pure _

theorem moves_lockEnqueues (f : HashSet UInt16 → HashSet UInt16)
    (h : ∀ core, D core { core with subscriberEnqueues := f core.subscriberEnqueues }) :
    Moves D D (lockEnqueues (H := H) f) := by
  refine Moves.bind (Moves.gets _) fun poisoned => ?_
  split
  · exact Moves.unwind
  · exact Moves.modify h

theorem moves_answered {token : Token} (hqueued : Moves D D (log (H := H) (.queued token)))
    (answer : Except Backpressure Unit) :
    Moves D D (do
      match answer with
      | .ok () => log (.queued token)
      | .error _ => pure ()
      return answer) := by
  cases answer with
  | ok _ => exact Moves.bind hqueued fun _ => Moves.pure _
  | error _ => exact Moves.pure _

theorem moves_sendRequestFrame {direct : Bool} {sessionId : UInt16} {token : Token}
    {payload : Bytes}
    (hdirect : direct = true → ∀ core : LooperCore H, D core (core.note .direct))
    (hsent : ∀ outer, Moves D D (log (H := H) (.sent sessionId outer)))
    (hsend : ∀ outer, Moves D D (trySend env sessionId outer))
    (hqueued : Moves D D (log (H := H) (.queued token))) :
    Moves D D (sendRequestFrame env direct sessionId token payload) := by
  unfold sendRequestFrame
  split
  · exact Moves.unwind
  · cases direct with
    | true =>
      refine Moves.bind (Moves.modify (hdirect rfl)) fun _ => Moves.bind (hsent _) fun _ => ?_
      exact Moves.bind (Moves.pure _) (moves_answered hqueued)
    | false => exact Moves.bind (hsend _) (moves_answered hqueued)

theorem moves_installAndSend {direct : Bool} {handle : ServiceHandle} {msg : Option Bytes}
    {entry : DispatchEntry H} (hinsert : Moves D D (insert handle.sessionId entry))
    (hframe : ∀ token payload,
      Moves D D (sendRequestFrame env direct handle.sessionId token payload))
    (hcancel : ∀ token, Moves D D (cancel (H := H) token))
    (hresolution : ∀ token, Moves D D (recordResolution (H := H) token)) :
    Moves D D (installAndSend env direct handle msg entry) := by
  refine Moves.bind hinsert fun token => ?_
  cases msg with
  | none => exact Moves.unwind
  | some msg =>
    refine Moves.bind (hframe _ _) fun answer => ?_
    cases answer with
    | ok _ => exact Moves.pure _
    | error _ =>
      refine Moves.bind (Moves.bind (hcancel token) fun found => ?_) fun _ => Moves.pure _
      split
      · exact hresolution token
      · exact Moves.pure _

theorem moves_performCtx {direct : Bool} {call : Call}
    (hplain : ∀ effect, Moves D D (perform env call effect))
    (hasync : ∀ sessionId futureDropped,
      Moves D D (insertAsync (H := H) sessionId futureDropped))
    (hrequest : ∀ handle msg entry, Moves D D (installAndSend env direct handle msg entry))
    (effect : CtxEffect H) : Moves D D (performCtx env direct call effect) := by
  cases effect with
  | plain effect => exact hplain effect
  | insertAsync sessionId futureDropped => exact Moves.bind (hasync _ _) fun _ => Moves.pure _
  | sendRequest handle msg entry =>
    refine Moves.bind (Moves.bind (Moves.gets _) fun exceeds => ?_) fun _ => Moves.pure _
    split
    · exact Moves.unwind
    · exact Moves.bind (hrequest _ _ _) fun _ => Moves.pure _
  | trySendRequest handle msg entry =>
    refine Moves.bind (Moves.gets _) fun exceeds => ?_
    split
    · exact Moves.pure _
    · exact hrequest _ _ _

omit [Trans D D D] in
theorem moves_service {sessionId : UInt16} {payload : Bytes}
    (hdispatch : ∀ frame, env.pc.frameFromBytes payload = some frame →
      Moves D D (dispatchFrame env false sessionId frame)) :
    Moves D D (handle env (.service sessionId payload)) := by
  rw [handle, dispatchService]
  cases hframe : env.pc.frameFromBytes payload with
  | none => exact Moves.pure _
  | some frame =>
    have hsome := hdispatch frame hframe
    cases frame <;> exact hsome

end Pane.CoreMoves
