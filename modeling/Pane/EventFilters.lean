import Pane.ContextEffects
import Pane.CoreMoves
import Pane.LooperPlan

namespace Pane.EventFilters

open Pane.HashTable Pane.Messages Pane.Correlator Pane.Callbacks Pane.Unwinding Pane.LooperState
open Pane.CallbackEffects Pane.CoreDispatch Pane.CoreRequest Pane.Looper Pane.CoreRuns
open Pane.CoreMoves Pane.ContextEffects Pane.LooperPlan

variable {H : Type} (env : Env H) {core core' : LooperCore H} {E : Event → Prop} {N : Note → Prop}

/-- The trace grows by events of this kind, and the notes by notes of that kind. -/
structure Only (E : Event → Prop) (N : Note → Prop) (core core' : LooperCore H) : Prop where
  trace : ∃ es, core'.trace = core.trace ++ es ∧ ∀ e ∈ es, E e
  notes : ∃ ns, core'.notes = core.notes ++ ns ∧ ∀ n ∈ ns, N n.2

/-- What may happen at any time: the work of the library, a panic, and the failure
closures that a cascade runs. A frame that goes straight into the buffer is not
among it. -/
structure Admits (E : Event → Prop) (N : Note → Prop) : Prop where
  work : ∀ e, isWork e → E e
  panicked : ∀ call tokens, E (.panicked call tokens)
  onFailed : ∀ t, E (.called (.onFailed t))
  notes : ∀ n, n ≠ .direct → N n

abbrev Shows (E : Event → Prop) (core core' : LooperCore H) : Prop :=
  Only E (fun _ => True) core core'

theorem Only.trans {core'' : LooperCore H} (h : Only E N core core') (h' : Only E N core' core'') :
    Only E N core core'' := by
  obtain ⟨⟨es, htrace, hes⟩, ns, hnotes, hns⟩ := h
  obtain ⟨⟨es', htrace', hes'⟩, ns', hnotes', hns'⟩ := h'
  refine ⟨⟨es ++ es', by rw [htrace', htrace, List.append_assoc], ?_⟩,
    ns ++ ns', by rw [hnotes', hnotes, List.append_assoc], ?_⟩
  · exact fun e he => (List.mem_append.mp he).elim (hes e) (hes' e)
  · exact fun n hn => (List.mem_append.mp hn).elim (hns n) (hns' n)

theorem only_silent (htrace : core'.trace = core.trace) (hnotes : core'.notes = core.notes) :
    Only E N core core' := ⟨⟨[], by simp [htrace]⟩, [], by simp [hnotes]⟩

instance : Std.Refl (Only E N (H := H)) := ⟨fun _ => only_silent rfl rfl⟩

instance : Trans (Only E N (H := H)) (Only E N) (Only E N) := ⟨Only.trans⟩

theorem only_log {e : Event} (he : E e) (core : LooperCore H) : Only E N core (core.log e) :=
  ⟨⟨[e], rfl, by simpa using he⟩, [], by simp [LooperCore.log]⟩

theorem only_note {n : Note} (hn : N n) (core : LooperCore H) : Only E N core (core.note n) :=
  ⟨⟨[], by simp [LooperCore.note]⟩, [_], rfl, by simpa using hn⟩

section Operations

variable (hE : Admits E N)

include hE

theorem only_of_works {direct : Bool} (hdirect : direct = true → N .direct)
    (h : WorksWith direct core core') : Only E N core core' := by
  obtain ⟨es, htrace, hes⟩ := h.trace
  obtain ⟨ns, hnotes, hns⟩ := h.notes
  refine ⟨⟨es, htrace, fun e he => hE.work e (hes e he)⟩, ns, hnotes, fun n hn => ?_⟩
  obtain ⟨heq, htrue⟩ := hns n hn
  exact heq ▸ hdirect htrue

theorem only_works {α : Type} {m : Loop H α} (h : Moves Works Works m) :
    Moves (Only E N) (Only E N) m :=
  h.mono (fun _ _ => only_of_works hE nofun) fun _ _ => only_of_works hE nofun

theorem only_enter {F : Type} {perform : F → Loop H (Except Backpressure Unit)} {call : Call}
    {direct : Bool}
    (hperform : ∀ effect, Moves (WorksWith direct) (WorksWith direct) (perform effect))
    (hdirect : direct = true → N .direct) (hcall : E (.called call)) (code : H → Script F H) :
    Moves (Only E N) (Only E N) (enter perform call code) := by
  apply Moves.of_always
  intro core
  apply (ends_entered hperform code core).mono
  rintro o core' ⟨core₁, hworks, ho⟩
  have h₁ : Only E N core core₁ := (only_log hcall core).trans (only_of_works hE hdirect hworks)
  cases o with
  | done flow => exact ho ▸ h₁.trans (only_note (hE.notes (.returned call flow) nofun) core₁)
  | panicked => exact ho ▸ h₁.trans (only_log (hE.panicked _ _) core₁)

theorem only_invoke {call : Call} (hcall : E (.called call)) (code : H → Callback H) :
    Moves (Only E N) (Only E N) (invoke env call code) :=
  only_enter hE (works_perform env) nofun hcall code

theorem only_fire (token : Token) {call : Call} (hcall : E (.called call))
    (code : DispatchEntry H → H → Callback H) {event : Event} (hevent : isWork event) :
    Moves (Only E N) (Only E N) (fire env token call code event) :=
  moves_fire (fun _ _ => only_silent rfl rfl) (fun _ _ => only_silent rfl rfl)
    (only_invoke env hE hcall) fun entry => only_works hE (works_settle token entry hevent)

theorem only_failTokens (tokens : List Token) :
    Moves (Only E N) (Only E N) (failTokens env tokens) :=
  Moves.forEach (fun token =>
    Moves.bind (only_fire env hE token (hE.onFailed token) _ rfl) fun _ => Moves.pure _) tokens

theorem only_cascade
    (failure : TokenOrder → ActiveSession → List (PeerScope × Token) × ActiveSession) :
    Moves (Only E N) (Only E N) (cascade env failure) := by
  refine Moves.bind (Moves.gets _) fun teardown => ?_
  refine Moves.bind (Moves.modify fun core => ?_) fun _ => only_failTokens env hE _
  have hnote : Only E N core (core.note (.cascading (teardown.1.map (·.2)))) :=
    only_note (hE.notes (.cascading _) nofun) core
  exact hnote.trans (only_silent rfl rfl)

theorem only_runDestruction (reason : ExitReason) :
    Moves (Only E N) (Only E N) (runDestruction env reason) := by
  have hnote (core : LooperCore H) : Only E N core (core.note (.destroying reason)) :=
    only_note (hE.notes (.destroying reason) nofun) core
  refine Moves.bind (Moves.modify fun core => (hnote core).trans (only_silent rfl rfl)) fun _ => ?_
  refine Moves.bind (only_cascade env hE _) fun _ => ?_
  refine Moves.bind (Moves.modify fun core => ⟨⟨_, rfl, ?_⟩, [], by simp⟩) fun _ =>
    Moves.modify fun _ => only_silent rfl rfl
  intro e he
  obtain ⟨key, -, rfl⟩ := List.mem_map.mp he
  exact hE.work _ rfl

theorem only_flowToOutcome (flow : Flow) : Moves (Only E N) (Only E N) (flowToOutcome env flow) :=
  moves_flowToOutcome (only_runDestruction env hE) flow

theorem only_failed : Moves (Only E N) (Only E N) (failed env) :=
  moves_failed (only_runDestruction env hE)

theorem only_dispatch {call : Call} (hcall : E (.called call)) (callback : H → Callback H) :
    Moves (Only E N) (Only E N) (dispatch env call callback) :=
  moves_dispatch (only_runDestruction env hE) (only_invoke env hE hcall callback)

theorem only_channelClosed (hcall : E (.called .disconnected)) :
    Moves (Only E N) (Only E N) (channelClosed env) :=
  moves_channelClosed (only_runDestruction env hE) (only_invoke env hE hcall _)
    fun _ => only_silent rfl rfl

theorem only_infraError : Moves (Only E N) (Only E N) (infraError env) :=
  moves_infraError (only_runDestruction env hE)

theorem only_dispatchResolution (token : Token) {fire : Loop H (Option Flow)}
    (h : Moves (Only E N) (Only E N) fire) :
    Moves (Only E N) (Only E N) (dispatchResolution env token fire) :=
  moves_dispatchResolution (only_runDestruction env hE) h
    (Moves.modify fun _ => only_silent rfl rfl)

theorem only_dispatchNotification {sessionId : UInt16} {inner : Bytes}
    (hhanded : E (.handed sessionId (.notification inner)))
    (hcall : E (.called (.receive sessionId inner))) :
    Moves (Only E N) (Only E N) (dispatchNotification env sessionId inner) :=
  moves_dispatchNotification (only_runDestruction env hE)
    (Moves.modify fun core => only_log hhanded core) (only_invoke env hE hcall)

theorem only_serveRequest (direct : Bool) {sessionId : UInt16} {token : Token} {inner : Bytes}
    (hcall : E (.called (.receiveRequest sessionId token inner)))
    (hdirect : direct = true → N .direct) :
    Moves (Only E N) (Only E N) (serveRequest env direct sessionId token inner) := by
  unfold serveRequest
  split
  · exact Moves.bind (only_works hE (works_sendFailed env _ _)) fun _ => Moves.pure _
  · refine Moves.bind (only_works hE (works_openPort _ _ _)) fun port => ?_
    exact only_enter hE (works_performCtx env direct _) hdirect hcall _

theorem only_dispatchRequestWithContext (direct : Bool) {sessionId : UInt16} {token : Token}
    {inner : Bytes} (hhanded : E (.handed sessionId (.request token inner)))
    (hcall : E (.called (.receiveRequest sessionId token inner)))
    (hdirect : direct = true → N .direct) :
    Moves (Only E N) (Only E N) (dispatchRequestWithContext env direct sessionId token inner) :=
  moves_dispatchRequestWithContext (only_runDestruction env hE)
    (Moves.modify fun core => only_log hhanded core)
    (only_serveRequest env hE direct hcall hdirect)

end Operations

def ofFrame (sessionId : UInt16) : ServiceFrame → List Event
  | .notification inner =>
    [.handed sessionId (.notification inner), .called (.receive sessionId inner)]
  | .request token inner =>
    [.handed sessionId (.request token inner), .called (.receiveRequest sessionId token inner)]
  | .reply token bytes => [.called (.onReply token bytes)]
  | .failed _ => []

def ofMessage (pc : Postcard) : LooperMessage → List Event
  | .control (.lifecycle msg) => [.called (.lifecycle msg)]
  | .control (.paneExited address reason) => [.called (.paneExited address reason)]
  | .service sessionId payload => ((pc.frameFromBytes payload).map (ofFrame sessionId)).getD []
  | _ => []

def ofOp (pc : Postcard) : Op → List Event
  | .handle msg => ofMessage pc msg
  | .syncRequest _ => []
  | .service _ sessionId frame => ofFrame sessionId frame
  | .tearDown sessionId reason => [.called (.subscriberDisconnected sessionId reason)]
  | .connectSubscriber sessionId => [.called (.subscriberConnected sessionId)]
  | .write _ => []

def isDirect : Op → Bool
  | .service direct .. => direct
  | _ => false

def ofAct (pc : Postcard) : Act → List Event
  | .op op => ofOp pc op
  | .close => [.called .disconnected]
  | .fail => []

section Acts

variable (hE : Admits E N)

include hE

theorem only_dispatchFrame (direct : Bool) (sessionId : UInt16) (frame : ServiceFrame)
    (h : ∀ e ∈ ofFrame sessionId frame, E e) (hdirect : direct = true → N .direct) :
    Moves (Only E N) (Only E N) (dispatchFrame env direct sessionId frame) := by
  cases frame with
  | notification inner =>
    exact only_dispatchNotification env hE (h _ (by simp [ofFrame])) (h _ (by simp [ofFrame]))
  | request token inner =>
    exact only_dispatchRequestWithContext env hE direct (h _ (by simp [ofFrame]))
      (h _ (by simp [ofFrame])) hdirect
  | reply token bytes =>
    exact only_dispatchResolution env hE token
      (only_fire env hE token (h _ (by simp [ofFrame])) _ rfl)
  | failed token =>
    exact only_dispatchResolution env hE token (only_fire env hE token (hE.onFailed token) _ rfl)

theorem only_handle (msg : LooperMessage) (h : ∀ e ∈ ofMessage env.pc msg, E e) :
    Moves (Only E N) (Only E N) (handle env msg) := by
  cases msg with
  | newConnection registers => exact Moves.pure _
  | localRevoke sessionId =>
    exact Moves.bind (only_works hE (works_sendControl env _)) fun _ => Moves.pure _
  | service sessionId payload =>
    refine moves_service fun frame hframe => ?_
    rw [ofMessage, hframe] at h
    exact only_dispatchFrame env hE false sessionId frame h fun hfalse => by cases hfalse
  | control msg =>
    cases msg with
    | lifecycle msg => exact only_dispatch env hE (h _ List.mem_cons_self) _
    | paneExited address reason => exact only_dispatch env hE (h _ List.mem_cons_self) _
    | serviceTeardown sessionId reason =>
      exact Moves.bind (only_cascade env hE _) fun _ => Moves.pure _
    | _ => exact Moves.pure _

theorem only_exec (op : Op) (h : ∀ e ∈ ofOp env.pc op, E e) (hdirect : isDirect op → N .direct) :
    Moves (Only E N) (Only E N) (op.exec env) := by
  cases op with
  | handle msg => exact only_handle env hE msg h
  | syncRequest req =>
    exact Moves.bind (only_works hE (works_processSyncRequest env req)) fun _ => Moves.pure _
  | service direct sessionId frame =>
    exact only_dispatchFrame env hE direct sessionId frame h hdirect
  | tearDown sessionId reason =>
    refine Moves.bind (only_cascade env hE _) fun _ => ?_
    exact only_dispatch env hE (h _ List.mem_cons_self) _
  | connectSubscriber sessionId =>
    exact moves_connectSubscriber (only_runDestruction env hE)
      (fun f => only_works hE (works_lockEnqueues f))
      (only_invoke env hE (h _ List.mem_cons_self))
  | write payload =>
    refine Moves.bind (Moves.bind ?_ fun _ => Moves.pure _) fun _ => Moves.pure _
    exact only_works hE (works_trySend env 0 payload)

theorem only_act (act : Act) (h : ∀ e ∈ ofAct env.pc act, E e)
    (hdirect : ∀ op, act = .op op → isDirect op → N .direct) :
    Moves (Only E N) (Only E N) (act.exec env) := by
  cases act with
  | op op =>
    refine Moves.bind (only_exec env hE op h (hdirect op rfl)) fun outcome => ?_
    cases outcome with
    | cont => exact Moves.pure _
    | exit reason => exact Moves.pure _
  | close =>
    exact Moves.bind (only_channelClosed env hE (h _ List.mem_cons_self)) fun _ => Moves.pure _
  | fail => exact Moves.bind (only_infraError env hE) fun _ => Moves.pure _

end Acts

def Grown (core core' : LooperCore H) : Prop := core.trace <+: core'.trace

instance : Std.Refl (Grown (H := H)) := ⟨fun _ => List.prefix_refl _⟩

instance : IsTrans (LooperCore H) Grown := ⟨fun _ _ _ h h' => h.trans h'⟩

theorem grown_of_works {direct : Bool} (h : WorksWith direct core core') : Grown core core' := by
  obtain ⟨es, htrace, -⟩ := h.trace
  exact ⟨es, htrace.symm⟩

theorem admits_all : Admits (fun _ => True) fun _ => True :=
  ⟨fun _ _ => trivial, fun _ _ => trivial, fun _ => trivial, fun _ _ => trivial⟩

theorem grown_of_moves {α : Type} {m : Loop H α}
    (h : Moves (Shows fun _ => True) (Shows fun _ => True) m) (core : LooperCore H) :
    Ends m core fun _ core' => Grown core core' := by
  apply (h.always core).mono
  rintro _ core' ⟨⟨es, htrace, -⟩, -⟩
  exact ⟨es, htrace.symm⟩

theorem grown_act (act : Act) (core : LooperCore H) : Grown core (act.exec env core).2 :=
  grown_of_moves (only_act env admits_all act (fun _ _ => trivial) fun _ _ _ => trivial) core

theorem grown_dispatch {call : Call} (callback : H → Callback H) (hexited : core.exited = false) :
    Ends (dispatch env call callback) core fun _ core' => Grown (core.log (.called call)) core' := by
  apply Ends.gets
  rw [hexited]
  apply Ends.bind
  apply Ends.catchUnwind
  apply (ends_entered (works_perform env) callback core).mono
  rintro o core' ⟨core₁, hworks, ho⟩
  have h₁ : Grown (core.log (.called call)) core₁ := grown_of_works hworks
  cases o with
  | done flow =>
    subst ho
    apply (grown_of_moves (only_flowToOutcome env admits_all flow) _).mono
    exact fun _ core' h => h₁.trans h
  | panicked =>
    subst ho
    apply (grown_of_moves (only_failed env admits_all) _).mono
    exact fun _ core' h => (h₁.trans ⟨_, rfl⟩).trans h

end Pane.EventFilters
