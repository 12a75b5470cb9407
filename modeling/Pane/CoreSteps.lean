import Mathlib.Logic.Relation
import Pane.CoreMoves
import Pane.RequestLedger

namespace Pane.CoreSteps

open Pane.HashTable Pane.Messages Pane.Correlator Pane.Callbacks Pane.Unwinding Pane.LooperState
open Pane.CallbackEffects Pane.CoreDispatch Pane.CoreRequest Pane.Looper Pane.CoreRuns
open Pane.RequestLedger Pane.CoreMoves

variable {H : Type} (env : Env H) (granted : UInt16 → ServiceFrame → Prop)

def offer (accepted : Bool) (service : UInt16) (payload : Bytes) : Event :=
  match accepted with
  | true => .sent service payload
  | false => .refused service payload

def IsNote : Event → Prop
  | .sent .. => False
  | .refused .. => False
  | .portOpened .. => False
  | .portAnswered .. => False
  | .replyLost .. => False
  | .handed _ (.request ..) => False
  | .installed .. => False
  | .called (.onReply token payload) => ∃ sessionId, granted sessionId (.reply token payload)
  | _ => True

def IsPlain (service : UInt16) (payload : Bytes) : Prop :=
  service = 0 ∨ ∃ inner, env.pc.frameToAllocvec (.notification inner) = some payload

def nextToken (core : LooperCore H) : Token := core.activeSession.correlator.nextToken

/-- What one step of a core does to its ports and its trace. -/
inductive Change (core core' : LooperCore H) : Prop
  | noted (es : List Event) (hes : ∀ e ∈ es, IsNote granted e)
    (htrace : core'.trace = core.trace ++ es) (hports : core'.ports = core.ports)
  | wrote (accepted : Bool) (service : UInt16) (payload : Bytes)
    (hplain : IsPlain env service payload)
    (htrace : core'.trace = core.trace ++ [offer accepted service payload])
    (hports : core'.ports = core.ports)
  | installed (s : UInt16) (t : Token) (hnew : nextToken core ≤ t) (hnext : t < nextToken core')
    (htrace : core'.trace = core.trace ++ [.installed t s]) (hports : core'.ports = core.ports)
  | requested (accepted : Bool) (s : UInt16) (t : Token) (inner outer : Bytes)
    (hnew : nextToken core ≤ t) (hnext : t < nextToken core')
    (houter : env.pc.frameToAllocvec (.request t inner) = some outer)
    (htrace : core'.trace = core.trace ++ [.installed t s, offer accepted s outer])
    (hports : core'.ports = core.ports)
  | rejected (accepted : Bool) (s : UInt16) (t : Token) (inner bytes : Bytes)
    (hgranted : granted s (.request t inner))
    (hbytes : env.pc.frameToAllocvec (.failed t) = some bytes)
    (htrace : core'.trace =
      core.trace ++ [.handed s (.request t inner), offer accepted s bytes])
    (hports : core'.ports = core.ports)
  | opened (s : UInt16) (t : Token) (inner : Bytes) (hgranted : granted s (.request t inner))
    (htrace : core'.trace = core.trace ++
      [.handed s (.request t inner), .portOpened (core.trace.length + 1) s t inner])
    (hports : core'.ports = core.ports.insert (core.trace.length + 1) (s, t))
  | answered (accepted : Bool) (port : PortId) (s : UInt16) (t : Token) (value bytes : Bytes)
    (hport : core.ports.lookup port = some (s, t))
    (hbytes : env.pc.frameToAllocvec (.reply t value) = some bytes)
    (htrace : core'.trace = core.trace ++ [.portAnswered port value, offer accepted s bytes])
    (hports : core'.ports = core.ports.erase port)
  | dropped (accepted : Bool) (port : PortId) (s : UInt16) (t : Token) (bytes : Bytes)
    (hport : core.ports.lookup port = some (s, t))
    (hbytes : env.pc.frameToAllocvec (.failed t) = some bytes)
    (htrace : core'.trace = core.trace ++ [offer accepted s bytes])
    (hports : core'.ports = core.ports.erase port)
  | lost (port : PortId) (s : UInt16) (t : Token)
    (hport : core.ports.lookup port = some (s, t))
    (htrace : core'.trace = core.trace ++ [.replyLost s t])
    (hports : core'.ports = core.ports.erase port)

def InstalledSince (core core' : LooperCore H) (t : Token) (s : UInt16) : Prop :=
  ∃ es, core'.trace = core.trace ++ es ∧ (.installed t s ∈ es ∨ .installedAsync t s ∈ es)

/-- A step, with what it does to the outstanding requests: tokens are not used
again, and what is outstanding was so before or is new. -/
structure Step (core core' : LooperCore H) : Prop where
  change : Change env granted core core'
  next : nextToken core ≤ nextToken core'
  tracked : ∀ t s, sessionOf core' t = some s →
    sessionOf core t = some s ∨ InstalledSince core core' t s

abbrev Steps : LooperCore H → LooperCore H → Prop := Relation.ReflTransGen (Step env granted)

abbrev Walks {α : Type} (m : Loop H α) : Prop := Moves (Steps env granted) (Steps env granted) m

structure Fewer (a a' : ActiveSession) : Prop where
  next : a.correlator.nextToken ≤ a'.correlator.nextToken
  sessions : ∀ t s, a'.correlator.sessionOf t = some s → a.correlator.sessionOf t = some s

theorem Fewer.refl (a : ActiveSession) : Fewer a a := ⟨Nat.le_refl _, fun _ _ h => h⟩

theorem fewer_recordResolution (token : Token) (a : ActiveSession) :
    Fewer a (a.recordResolution token) := by
  refine ⟨Nat.le_refl _, fun t s h => ?_⟩
  rw [ActiveSession.correlator_recordResolution,
    RequestCorrelator.sessionOf_recordResolution] at h
  split at h
  · cases h
  · exact h

theorem fewer_cascadeSessionFailure (order : TokenOrder) (sessionId : UInt16) (a : ActiveSession) :
    Fewer a (a.cascadeSessionFailure order sessionId).2 := by
  obtain ⟨-, hnext, hsessions⟩ := ActiveSession.cascadeSessionFailure_spec order sessionId a
  refine ⟨Nat.le_of_eq hnext.symm, fun t s h => ?_⟩
  rw [hsessions] at h
  split at h
  · cases h
  · exact h

theorem fewer_cascadeConnectionFailure (order : TokenOrder) (a : ActiveSession) :
    Fewer a (a.cascadeConnectionFailure order).2 := by
  refine ⟨Nat.le_refl _, fun t s h => ?_⟩
  cases h.symm.trans (RequestCorrelator.sessionOf_clear a.correlator)

variable {env granted} {core core' : LooperCore H} {call : Call}

theorem Step.fewer (hchange : Change env granted core core')
    (h : Fewer core.activeSession core'.activeSession) : Step env granted core core' :=
  ⟨hchange, h.next, fun t s hs => .inl (h.sessions t s hs)⟩

theorem Steps.silent (htrace : core'.trace = core.trace) (hports : core'.ports = core.ports)
    (h : Fewer core.activeSession core'.activeSession) : Steps env granted core core' :=
  .single (.fewer (.noted [] (by simp) (by simpa using htrace) hports) h)

theorem Steps.note {e : Event} (he : IsNote granted e) (htrace : core'.trace = core.trace ++ [e])
    (hports : core'.ports = core.ports) (hsession : core'.activeSession = core.activeSession) :
    Steps env granted core core' :=
  .single (.fewer (.noted [e] (by simpa using he) htrace hports) (hsession ▸ .refl _))

theorem walks_shed {f : LooperCore H → LooperCore H} (htrace : ∀ core, (f core).trace = core.trace)
    (hports : ∀ core, (f core).ports = core.ports)
    (hsession : ∀ core, Fewer core.activeSession (f core).activeSession) :
    Walks env granted (Code.modify f) :=
  Moves.modify fun core => .silent (htrace core) (hports core) (hsession core)

theorem walks_silent {f : LooperCore H → LooperCore H}
    (htrace : ∀ core, (f core).trace = core.trace)
    (hports : ∀ core, (f core).ports = core.ports)
    (hsession : ∀ core, (f core).activeSession = core.activeSession) :
    Walks env granted (Code.modify f) :=
  walks_shed htrace hports fun core => hsession core ▸ .refl _

theorem walks_log {e : Event} (he : IsNote granted e) : Walks env granted (log e) :=
  Moves.modify fun _ => .note he rfl rfl rfl

theorem ends_trySend (env : Env H) (service : UInt16) (payload : Bytes) (core : LooperCore H) :
    ∃ answer accepted, trySend env service payload core =
      (.done answer, core.log (offer accepted service payload)) := by
  rw [trySend_apply]
  cases env.trySend core.trace.length with
  | ok u => exact ⟨.ok u, true, rfl⟩
  | error b => exact ⟨.error b, false, rfl⟩

theorem walks_trySend {service : UInt16} {payload : Bytes} (h : IsPlain env service payload) :
    Walks env granted (trySend env service payload) := by
  intro core
  obtain ⟨answer, accepted, hsend⟩ := ends_trySend env service payload core
  unfold Ends
  rw [hsend]
  exact .single (.fewer (.wrote accepted service payload h rfl rfl) (.refl _))

theorem walks_sendControl (msg : ControlMessage) : Walks env granted (sendControl env msg) :=
  moves_sendControl fun _ => walks_trySend (.inl rfl)

theorem ends_usePort {port : PortId} {send : UInt16 → Token → Loop H Unit}
    {Q : Outcome Unit → LooperCore H → Prop}
    (hused : core.ports.lookup port = none → Q (.done ()) core)
    (hopen : ∀ s t, core.ports.lookup port = some (s, t) →
      Ends (send s t) { core with ports := core.ports.erase port } Q) :
    Ends (usePort port send) core Q := by
  apply Ends.gets
  cases hport : core.ports.lookup port with
  | none => exact hused hport
  | some p => exact hopen p.1 p.2 hport

section Effects

variable (hframes : env.pc.FrameRoundTrip)
include hframes

theorem sendFrame_eq (sessionId : UInt16) (frame : ServiceFrame) :
    ∃ bytes, env.pc.frameToAllocvec frame = some bytes ∧
      sendFrame env sessionId frame = trySend env sessionId bytes := by
  obtain ⟨bytes, hbytes, -⟩ := hframes frame
  refine ⟨bytes, hbytes, ?_⟩
  unfold sendFrame
  rw [hbytes]

theorem walks_dropPort (port : PortId) : Walks env granted (perform env call (.dropPort port)) := by
  refine Moves.bind (fun core => ?_) fun _ => Moves.pure _
  apply ends_usePort
  · exact fun _ => .refl
  · intro s t hport
    obtain ⟨bytes, hbytes, heq⟩ := sendFrame_eq hframes s (.failed t)
    rw [heq]
    obtain ⟨answer, accepted, hsend⟩ := ends_trySend env s bytes
      { core with ports := core.ports.erase port }
    apply Ends.bind
    unfold Ends
    rw [hsend]
    exact .single (.fewer (.dropped accepted port s t bytes hport hbytes rfl rfl) (.refl _))

theorem walks_reply (port : PortId) (value : Option Bytes) :
    Walks env granted (perform env call (.reply port value)) := by
  refine Moves.bind (fun core => ?_) fun _ => Moves.pure _
  apply ends_usePort
  · exact fun _ => .refl
  · intro s t hport
    cases value with
    | none => exact .single (.fewer (.lost port s t hport rfl rfl) (.refl _))
    | some value =>
      obtain ⟨bytes, hbytes, heq⟩ := sendFrame_eq hframes s (.reply t value)
      dsimp only
      rw [heq]
      apply Ends.modify
      obtain ⟨answer, accepted, hsend⟩ := ends_trySend env s bytes
        (LooperCore.log (.portAnswered port value) { core with ports := core.ports.erase port })
      apply Ends.bind
      unfold Ends
      rw [hsend]
      refine .single (.fewer ?_ (.refl _))
      refine .answered accepted port s t value bytes hport hbytes ?_ rfl
      simp [LooperCore.log]

theorem walks_perform (effect : Effect) : Walks env granted (perform env call effect) := by
  cases effect with
  | sendNotification handle msg =>
    cases msg with
    | none => exact Moves.unwind
    | some msg =>
      obtain ⟨bytes, hbytes, heq⟩ :=
        sendFrame_eq hframes handle.sessionId (.notification (handle.tag :: msg))
      show Moves _ _ (sendFrame env handle.sessionId (.notification (handle.tag :: msg)))
      rw [heq]
      exact walks_trySend (.inr ⟨_, hbytes⟩)
  | dropHandle handle => exact Moves.bind (walks_sendControl _) fun _ => Moves.pure _
  | cancel token => exact Moves.bind (walks_sendControl _) fun _ => Moves.pure _
  | reply port value => exact walks_reply hframes port value
  | dropPort port => exact walks_dropPort hframes port
  | subscriberSender sessionId =>
    refine Moves.bind (Moves.bind (Moves.gets _) fun poisoned => ?_) fun _ => Moves.pure _
    split
    · exact Moves.unwind
    · refine Moves.bind (Moves.gets _) fun found => ?_
      split
      · exact walks_silent (fun _ => rfl) (fun _ => rfl) fun _ => rfl
      · refine Moves.bind (Moves.modify fun _ => ?_) fun _ => Moves.unwind
        exact Steps.note (e := .unclaimable call sessionId) trivial rfl rfl rfl

end Effects

theorem walks_enter {E : Type} {perform : E → Loop H (Except Backpressure Unit)}
    (hperform : ∀ effect, Walks env granted (perform effect))
    (call : Call) (hcall : IsNote granted (.called call)) (code : H → Script E H) :
    Walks env granted (enter perform call code) := by
  refine moves_enter (fun _ => .note hcall rfl rfl rfl) (fun _ _ => .silent rfl rfl (.refl _))
    hperform (fun _ _ => .silent rfl rfl (.refl _)) (fun _ => ?_) code
  exact Steps.note (e := .panicked call _) trivial rfl rfl rfl

section Library

variable (hframes : env.pc.FrameRoundTrip)
include hframes

theorem walks_invoke (call : Call) (hcall : IsNote granted (.called call)) (code : H → Callback H) :
    Walks env granted (invoke env call code) :=
  walks_enter (walks_perform hframes) call hcall code

omit hframes in
theorem walks_settle (token : Token) (entry : AsyncDispatchEntry) {event : Event}
    (hevent : IsNote granted event) : Walks env granted (settle token entry event) := by
  unfold settle
  split
  · exact Moves.bind (walks_log trivial) fun _ => Moves.unwind
  · exact walks_log hevent

theorem walks_fire (token : Token) (call : Call) (hcall : IsNote granted (.called call))
    (code : DispatchEntry H → H → Callback H) {event : Event} (hevent : IsNote granted event) :
    Walks env granted (fire env token call code event) :=
  moves_fire (fun _ _ => .silent rfl rfl (.refl _)) (fun _ _ => .silent rfl rfl (.refl _))
    (walks_invoke hframes call hcall) fun entry => walks_settle token entry hevent

theorem walks_fireFailed (token : Token) : Walks env granted (fireFailed env token) :=
  walks_fire hframes token (.onFailed token) trivial _ trivial

theorem walks_cascade
    {failure : TokenOrder → ActiveSession → List (PeerScope × Token) × ActiveSession}
    (hfailure : ∀ order a, Fewer a (failure order a).2) :
    Walks env granted (cascade env failure) := by
  have htokens : ∀ tokens, Walks env granted (failTokens env tokens) :=
    Moves.forEach fun token => Moves.bind (walks_fireFailed hframes token) fun _ => Moves.pure _
  apply Moves.of_always
  intro core
  exact (htokens _).after (.silent rfl rfl (hfailure _ core.activeSession))

theorem walks_runDestruction (reason : ExitReason) :
    Walks env granted (runDestruction env reason) := by
  refine Moves.bind (walks_silent (fun _ => rfl) (fun _ => rfl) fun _ => rfl) fun _ => ?_
  refine Moves.bind (walks_cascade hframes fewer_cascadeConnectionFailure) fun _ => ?_
  refine Moves.bind (Moves.modify fun core => .single (.fewer (.noted _ ?_ rfl rfl) (.refl _)))
    fun _ => ?_
  · intro e he
    obtain ⟨key, -, rfl⟩ := List.mem_map.mp he
    trivial
  · exact walks_silent (fun _ => rfl) (fun _ => rfl) fun _ => rfl

theorem walks_dispatch (call : Call) (hcall : IsNote granted (.called call))
    (callback : H → Callback H) : Walks env granted (dispatch env call callback) :=
  moves_dispatch (walks_runDestruction hframes) (walks_invoke hframes call hcall callback)

theorem walks_channelClosed : Walks env granted (channelClosed env) :=
  moves_channelClosed (walks_runDestruction hframes) (walks_invoke hframes .disconnected trivial _)
    fun _ => .silent rfl rfl (.refl _)

theorem walks_infraError : Walks env granted (infraError env) :=
  moves_infraError (walks_runDestruction hframes)

omit hframes in
theorem walks_recordResolution (token : Token) : Walks env granted (recordResolution token) :=
  walks_shed (fun _ => rfl) (fun _ => rfl)
    fun core => fewer_recordResolution token core.activeSession

theorem walks_dispatchResolution (token : Token) {fire : Loop H (Option Flow)}
    (h : Walks env granted fire) : Walks env granted (dispatchResolution env token fire) :=
  moves_dispatchResolution (walks_runDestruction hframes) h (walks_recordResolution token)

end Library

section Requests

theorem walks_cancel (token : Token) : Walks env granted (cancel token) := by
  refine Moves.bind (Moves.gets _) fun key => Moves.bind (Moves.gets _) fun found => ?_
  split
  · exact Moves.bind (Moves.modify fun _ => Steps.note (e := .cancelled token) trivial rfl rfl rfl)
      fun _ => Moves.pure _
  · refine Moves.bind (Moves.gets _) fun entry => ?_
    cases entry with
    | none => exact Moves.pure _
    | some entry =>
      refine Moves.bind (walks_silent (fun _ => rfl) (fun _ => rfl) fun _ => rfl) fun _ => ?_
      exact Moves.bind (walks_settle token entry trivial) fun _ => Moves.pure _

def Allocates (sessionId : UInt16) (core core' : LooperCore H) : Prop :=
  core'.activeSession = (core.activeSession.allocateToken sessionId).2

theorem Allocates.next {sessionId : UInt16} (h : Allocates sessionId core core') :
    nextToken core' = nextToken core + 1 := by
  rw [nextToken, show core'.activeSession = _ from h]
  rfl

theorem Allocates.step {sessionId : UInt16} {es : List Event} (h : Allocates sessionId core core')
    (hchange : Change env granted core core') (htrace : core'.trace = core.trace ++ es)
    (hes : .installed (nextToken core) sessionId ∈ es ∨
      .installedAsync (nextToken core) sessionId ∈ es) : Step env granted core core' := by
  refine ⟨hchange, ?_, fun t s hs => ?_⟩
  · rw [h.next]
    exact Nat.le_succ _
  · have hsession : sessionOf core' t =
        if t = nextToken core then some sessionId else sessionOf core t := by
      rw [sessionOf, show core'.activeSession = _ from h]
      exact RequestCorrelator.sessionOf_allocateToken core.activeSession.correlator
    rw [hsession] at hs
    split at hs
    · next ht =>
      cases hs
      rw [ht]
      exact .inr ⟨es, htrace, hes⟩
    · exact .inl hs

theorem walks_insertAsync (sessionId : UInt16) (futureDropped : Bool) :
    Walks env granted (insertAsync sessionId futureDropped) := by
  apply Moves.of_always
  intro core
  let core' := (insertAsync sessionId futureDropped core).2
  have hallocates : Allocates sessionId core core' := rfl
  have htrace : core'.trace = core.trace ++ [.installedAsync (nextToken core) sessionId] := rfl
  exact .single (hallocates.step (.noted _ (by simp [IsNote]) htrace rfl) htrace (.inr (by simp)))

theorem ends_insert (sessionId : UInt16) (entry : DispatchEntry H) (core : LooperCore H) :
    Ends (insert sessionId entry) core fun o core' =>
      match o with
      | .done token => token = nextToken core ∧ Allocates sessionId core core' ∧
        core'.trace = core.trace ++ [.installed token sessionId] ∧ core'.ports = core.ports
      | .panicked => False := ⟨rfl, rfl, rfl, rfl⟩

variable (hframes : env.pc.FrameRoundTrip)
include hframes

theorem ends_sendRequestFrame (direct : Bool) (sessionId : UInt16) (token : Token) (payload : Bytes)
    {before : LooperCore H} (htoken : token = nextToken before)
    (hallocates : Allocates sessionId before core)
    (htrace : core.trace = before.trace ++ [.installed token sessionId])
    (hports : core.ports = before.ports) :
    Ends (sendRequestFrame env direct sessionId token payload) core
      fun _ core' => Steps env granted before core' := by
  obtain ⟨outer, houter, -⟩ := hframes (.request token payload)
  have hstep (accepted : Bool) {core₁ : LooperCore H}
      (htrace₁ : core₁.trace = core.trace ++ [offer accepted sessionId outer])
      (hsession₁ : core₁.activeSession = core.activeSession) (hports₁ : core₁.ports = core.ports) :
      Steps env granted before core₁ := by
    have hlogged : core₁.trace =
        before.trace ++ [.installed token sessionId, offer accepted sessionId outer] := by
      simp [htrace₁, htrace]
    have hafter : Allocates sessionId before core₁ := hsession₁.trans hallocates
    refine .single (hafter.step ?_ hlogged (.inl (by simp [htoken])))
    refine .requested accepted sessionId token payload outer ?_ ?_ houter hlogged
      (hports₁.trans hports)
    · rw [htoken]
    · rw [htoken, hafter.next]
      exact Nat.lt_succ_self _
  have hqueued (core₁ : LooperCore H) (h : Steps env granted before core₁) :
      Steps env granted before (core₁.log (.queued token)) :=
    h.trans (Steps.note (e := .queued token) trivial rfl rfl rfl)
  unfold sendRequestFrame
  rw [houter]
  cases direct with
  | true => exact hqueued _ (hstep true rfl rfl rfl)
  | false =>
    obtain ⟨answer, accepted, hsend⟩ := ends_trySend env sessionId outer core
    apply Ends.bind
    unfold Ends
    simp only [hsend]
    cases answer with
    | ok u => exact hqueued _ (hstep accepted rfl rfl rfl)
    | error b => exact hstep accepted rfl rfl rfl

theorem walks_insert {α : Type} (direct : Bool) (sessionId : UInt16) (entry : DispatchEntry H)
    (payload : Bytes) {f : Token → Except Backpressure Unit → Loop H α}
    (hf : ∀ token answer, Walks env granted (f token answer)) :
    Walks env granted (do
      let token ← insert sessionId entry
      let answer ← sendRequestFrame env direct sessionId token payload
      f token answer) := by
  apply Moves.of_always
  intro core
  refine Ends.seq (ends_insert sessionId entry core) ?_ fun _ h => h.elim
  intro token core₁ h
  have hsent : Ends (sendRequestFrame env direct sessionId token payload) core₁
      fun _ core' => Steps env granted core core' :=
    ends_sendRequestFrame hframes direct sessionId token payload h.1 h.2.1 h.2.2.1 h.2.2.2
  refine Ends.seq hsent ?_ ?_
  · exact fun answer core₂ h₂ => (hf token answer).after h₂
  · exact fun _ h₂ => h₂

theorem walks_installAndSend (direct : Bool) (handle : ServiceHandle) (msg : Option Bytes)
    (entry : DispatchEntry H) : Walks env granted (installAndSend env direct handle msg entry) := by
  cases msg with
  | none =>
    intro core
    let core' := (insert handle.sessionId entry core).2
    have hallocates : Allocates handle.sessionId core core' := rfl
    have htrace : core'.trace = core.trace ++ [.installed (nextToken core) handle.sessionId] := rfl
    refine .single (hallocates.step ?_ htrace (.inl (by simp)))
    exact .installed handle.sessionId _ (Nat.le_refl _) (Nat.lt_succ_self _) htrace rfl
  | some msg =>
    refine walks_insert hframes direct _ entry _ fun token answer => ?_
    cases answer with
    | ok _ => exact Moves.pure _
    | error _ =>
      refine Moves.bind (Moves.bind (walks_cancel token) fun found => ?_) fun _ => Moves.pure _
      split
      · exact walks_recordResolution token
      · exact Moves.pure _

theorem walks_performCtx (direct : Bool) (effect : CtxEffect H) :
    Walks env granted (performCtx env direct call effect) :=
  moves_performCtx (walks_perform hframes) walks_insertAsync (walks_installAndSend hframes direct)
    effect

theorem walks_processSyncRequest (req : SyncRequest) :
    Walks env granted (processSyncRequest env req) := by
  refine walks_insert hframes false _ _ _ fun token answer => ?_
  cases answer with
  | ok _ => exact Moves.pure _
  | error _ => exact Moves.bind (walks_cancel token) fun _ => walks_recordResolution token

theorem walks_dispatchRequestWithContext (direct : Bool) (sessionId : UInt16) (token : Token)
    (inner : Bytes) (hgranted : granted sessionId (.request token inner)) :
    Walks env granted
      (dispatchRequestWithContext env direct sessionId token inner) := by
  apply Moves.of_always
  intro core
  apply Ends.modify
  have hserved : Ends (serveRequest env direct sessionId token inner)
      (core.log (.handed sessionId (.request token inner)))
      fun _ core' => Steps env granted core core' := by
    unfold serveRequest
    split
    · obtain ⟨bytes, hbytes, -⟩ := hframes (.failed token)
      obtain ⟨answer, accepted, hsend⟩ := ends_trySend env sessionId bytes
        (core.log (.handed sessionId (.request token inner)))
      unfold sendFailed
      rw [hbytes]
      apply Ends.bind
      apply Ends.bind
      unfold Ends
      rw [hsend]
      refine .single (.fewer ?_ (.refl _))
      refine .rejected accepted sessionId token inner bytes hgranted hbytes ?_ rfl
      simp [LooperCore.log]
    · next code _ =>
      let port := core.trace.length + 1
      let core₁ : LooperCore H :=
        { (core.log (.handed sessionId (.request token inner))).log
            (.portOpened port sessionId token inner) with
          ports := core.ports.insert port (sessionId, token) }
      have hopened : Steps env granted core core₁ := by
        refine .single (.fewer (.opened sessionId token inner hgranted ?_ rfl) (.refl _))
        simp [core₁, port, LooperCore.log]
      let call : Call := .receiveRequest sessionId token inner
      have henter : Walks env granted (enter (performCtx env direct call) call (code port)) :=
        walks_enter (walks_performCtx hframes direct) call trivial (code port)
      apply Ends.bind
      unfold Ends
      simp only [openPort, Code.bind_apply, Code.gets_apply, Code.modify_apply, Code.pure_apply]
      have hport : (core.log (.handed sessionId (.request token inner))).trace.length = port := by
        simp [port, LooperCore.log]
      rw [hport]
      exact henter.after hopened
  refine Ends.bind (Ends.catchUnwind (hserved.mono ?_))
  intro o core₁ h₁
  cases o with
  | done flow => exact (moves_flowToOutcome (walks_runDestruction hframes) flow).after h₁
  | panicked => exact (moves_failed (walks_runDestruction hframes)).after h₁

theorem walks_dispatchNotification (sessionId : UInt16) (inner : Bytes) :
    Walks env granted (dispatchNotification env sessionId inner) :=
  moves_dispatchNotification (walks_runDestruction hframes) (walks_log trivial)
    (walks_invoke hframes (.receive sessionId inner) trivial)

theorem walks_dispatchFrame (direct : Bool) (sessionId : UInt16) (frame : ServiceFrame)
    (hgranted : granted sessionId frame) :
    Walks env granted (dispatchFrame env direct sessionId frame) := by
  cases frame with
  | notification inner => exact walks_dispatchNotification hframes sessionId inner
  | request token inner =>
    exact walks_dispatchRequestWithContext hframes direct sessionId token inner hgranted
  | reply token value =>
    exact walks_dispatchResolution hframes token
      (walks_fire hframes token (.onReply token value) ⟨sessionId, hgranted⟩ _ trivial)
  | failed token => exact walks_dispatchResolution hframes token (walks_fireFailed hframes token)

end Requests

def Grants (pc : Postcard) : Op → UInt16 → ServiceFrame → Prop
  | .service _ sessionId frame => fun s f => s = sessionId ∧ f = frame
  | .handle (.service sessionId payload) => fun s f =>
    s = sessionId ∧ pc.frameFromBytes payload = some f
  | _ => fun _ _ => False

section Operations

variable (hframes : env.pc.FrameRoundTrip)
include hframes

theorem walks_handle (msg : LooperMessage)
    (hgranted : ∀ sessionId frame, Grants env.pc (.handle msg) sessionId frame →
      granted sessionId frame) :
    Walks env granted (handle env msg) := by
  cases msg with
  | control msg =>
    cases msg with
    | lifecycle msg => exact walks_dispatch hframes (.lifecycle msg) trivial _
    | serviceTeardown sessionId reason =>
      exact Moves.bind (walks_cascade hframes fun order => fewer_cascadeSessionFailure order _)
        fun _ => Moves.pure _
    | paneExited address reason =>
      exact walks_dispatch hframes (.paneExited address reason) trivial _
    | _ => exact Moves.pure _
  | localRevoke sessionId => exact Moves.bind (walks_sendControl _) fun _ => Moves.pure _
  | newConnection registers => exact Moves.pure _
  | service sessionId payload =>
    refine moves_service fun frame hframe => ?_
    exact walks_dispatchFrame hframes false sessionId frame
      (hgranted sessionId frame ⟨rfl, hframe⟩)

omit hframes in
theorem walks_lockEnqueues (f : HashSet UInt16 → HashSet UInt16) :
    Walks env granted (lockEnqueues f) :=
  moves_lockEnqueues f fun _ => .silent rfl rfl (.refl _)

theorem walks_exec (op : Op)
    (hgranted : ∀ sessionId frame, Grants env.pc op sessionId frame → granted sessionId frame) :
    Walks env granted (op.exec env) := by
  cases op with
  | handle msg => exact walks_handle hframes msg hgranted
  | syncRequest req => exact Moves.bind (walks_processSyncRequest hframes req) fun _ => Moves.pure _
  | service direct sessionId frame =>
    exact walks_dispatchFrame hframes _ _ frame (hgranted sessionId frame ⟨rfl, rfl⟩)
  | tearDown sessionId reason =>
    refine Moves.bind (walks_cascade hframes fun order => fewer_cascadeSessionFailure order _)
      fun _ => ?_
    exact walks_dispatch hframes (.subscriberDisconnected sessionId reason) trivial _
  | connectSubscriber sessionId =>
    exact moves_connectSubscriber (walks_runDestruction hframes) walks_lockEnqueues
      (walks_invoke hframes (.subscriberConnected sessionId) trivial)
  | write payload =>
    refine Moves.bind ?_ fun _ => Moves.pure _
    exact Moves.bind (walks_trySend (.inl rfl)) fun _ => Moves.pure _

def Clears (env : Env H) (granted : UInt16 → ServiceFrame → Prop) (sessionId : UInt16)
    (core core' : LooperCore H) : Prop :=
  ∃ core₁, Steps env granted core core₁ ∧ (∀ t, sessionOf core₁ t ≠ some sessionId) ∧
    Steps env granted core₁ core'

theorem ends_dispatchTeardown (sessionId : UInt16) (core : LooperCore H) :
    Ends (dispatchTeardown env sessionId) core fun _ => Clears env granted sessionId core := by
  have htokens : ∀ tokens, Walks env granted (failTokens env tokens) :=
    Moves.forEach fun token => Moves.bind (walks_fireFailed hframes token) fun _ => Moves.pure _
  let order := env.order core.trace.length
  let teardown := core.activeSession.cascadeSessionFailure order sessionId
  let core₁ : LooperCore H :=
    { core.note (.cascading (teardown.1.map Prod.snd)) with
      activeSession := teardown.2
      cascaded := core.cascaded ++ LooperCore.doomed core teardown.1 }
  have hbefore : Steps env granted core core₁ :=
    .silent rfl rfl (fewer_cascadeSessionFailure order sessionId core.activeSession)
  have hnone : ∀ t, sessionOf core₁ t ≠ some sessionId := by
    intro t ht
    have hsessions := (ActiveSession.cascadeSessionFailure_spec order sessionId
      core.activeSession).2.2 t
    rw [show sessionOf core₁ t = _ from hsessions] at ht
    split at ht
    · cases ht
    · next hne => exact hne ht
  apply Ends.gets
  apply Ends.modify
  exact ((htokens (teardown.1.map Prod.snd)).always core₁).mono
    fun _ core' h => ⟨core₁, hbefore, hnone, h⟩

end Operations

def tornDown : Op → Option UInt16
  | .tearDown sessionId _ => some sessionId
  | .handle (.control (.serviceTeardown sessionId _)) => some sessionId
  | _ => none

theorem ends_teardown (hframes : env.pc.FrameRoundTrip) {op : Op} {sessionId : UInt16}
    (hop : tornDown op = some sessionId) (core : LooperCore H) :
    Ends (op.exec env) core fun _ => Clears env granted sessionId core := by
  have hteardown : Ends (dispatchTeardown env sessionId) core
      fun _ => Clears env granted sessionId core := ends_dispatchTeardown hframes sessionId core
  cases op with
  | tearDown session reason =>
    cases hop
    refine Ends.seq hteardown ?_ fun _ h => h
    rintro _ core₂ ⟨core₁, hbefore, hnone, hafter⟩
    have hrest : Walks env granted (dispatchSubscriberDisconnected env sessionId reason) :=
      walks_dispatch hframes (.subscriberDisconnected sessionId reason) trivial _
    exact (hrest.after hafter).mono fun _ core' h => ⟨core₁, hbefore, hnone, h⟩
  | handle msg =>
    cases msg with
    | control msg =>
      cases msg with
      | serviceTeardown session reason =>
        cases hop
        exact Ends.seq hteardown (fun _ _ h => h) fun _ h => h
      | _ => cases hop
    | _ => cases hop
  | _ => cases hop

theorem InstalledSince.mono {core₀ core₁ : LooperCore H} {t : Token} {s : UInt16}
    {es es' : List Event}
    (h : InstalledSince core₀ core₁ t s) (hbefore : core₀.trace = core.trace ++ es)
    (hafter : core'.trace = core₁.trace ++ es') : InstalledSince core core' t s := by
  obtain ⟨new, hnew, hmem⟩ := h
  refine ⟨es ++ new ++ es', ?_, ?_⟩
  · simp only [hafter, hnew, hbefore, List.append_assoc]
  · simp only [List.mem_append]
    tauto

theorem Step.grows (h : Step env granted core core') : ∃ es, core'.trace = core.trace ++ es := by
  cases h.change <;> exact ⟨_, ‹_›⟩

theorem grows_steps (h : Steps env granted core core') : ∃ es, core'.trace = core.trace ++ es := by
  induction h with
  | refl => exact ⟨[], (List.append_nil _).symm⟩
  | tail _ hstep ih =>
    obtain ⟨es, hes⟩ := ih
    obtain ⟨es', hes'⟩ := hstep.grows
    exact ⟨es ++ es', by rw [hes', hes, List.append_assoc]⟩

theorem tracked_steps (h : Steps env granted core core') {t : Token} {s : UInt16}
    (hs : sessionOf core' t = some s) :
    sessionOf core t = some s ∨ InstalledSince core core' t s := by
  induction h with
  | refl => exact .inl hs
  | @tail core₁ core₂ hsteps hstep ih =>
    obtain ⟨es, hes⟩ := grows_steps hsteps
    obtain ⟨es', hes'⟩ := hstep.grows
    obtain hbefore | hnew := hstep.tracked t s hs
    · obtain hbefore | hnew := ih hbefore
      · exact .inl hbefore
      · exact .inr (hnew.mono (List.append_nil _).symm hes')
    · exact .inr (hnew.mono hes (List.append_nil _).symm)

end Pane.CoreSteps
