import Pane.CoreRuns
import Pane.RequestSafety

namespace Pane.LooperSafety

open Pane.HashTable Pane.Messages Pane.Correlator Pane.Callbacks Pane.Unwinding Pane.LooperState
open Pane.CoreDispatch Pane.CoreRequest Pane.Looper Pane.CoreRuns Pane.RequestLedger Pane.Cascades
open Pane.LiveCore Pane.Resolutions Pane.RequestSafety

variable {H : Type} (env : Env H) {core core' : LooperCore H}

theorem over_reclassified {reason : ExitReason} (h : Over .graceful core)
    (hsent : core' = { core with exitTx := core.exitTx ++ [reason] }) : Over reason core' := by
  subst hsent
  refine ⟨⟨h.ledger.peer, h.ledger.keys, h.ledger.settled, h.ledger.decided, h.ledger.installed,
    h.ledger.kept⟩, h.entries, h.asyncEntries, by simp, ?_⟩
  intro pre call outstanding post htrace
  exact absurd (h.contained pre call outstanding post htrace).1 (by decide)

theorem post_connectionLost (hlive : Live core) :
    Ends (connectionLost env) core (Post env) := by
  refine Ends.seq (post_dispatch env env.handler.disconnected rfl hlive) ?_ fun _ h => .inl h
  intro outcome core' h
  cases outcome with
  | cont => exact h
  | exit reason =>
    cases reason with
    | graceful => exact over_reclassified h.1 rfl
    | disconnected => exact h.1
    | failed => exact h.1
    | infraError => exact h.1

theorem post_handle (msg : LooperMessage) (hlive : Live core) :
    Ends (handle env msg) core (Post env) := by
  cases msg with
  | service sessionId payload => exact post_dispatchService env sessionId payload hlive
  | newConnection registers => exact hlive
  | localRevoke sessionId =>
    refine Ends.seq (stable_sendControl env (.revokeInterest sessionId) core hlive) ?_
      fun _ h => h.elim
    exact fun _ _ h => Ends.pure h
  | control msg =>
    cases msg with
    | lifecycle msg =>
      exact (post_dispatch env (env.handler.receive msg) rfl hlive).mono fun _ _ h => h.post
    | serviceTeardown sessionId reason =>
      refine Ends.seq (live_dispatchTeardown env sessionId hlive) ?_ fun _ h => .inl h
      exact fun _ _ h => Ends.pure h
    | paneExited address reason =>
      exact (post_dispatch env (env.handler.paneExited address reason) rfl hlive).mono
        fun _ _ h => h.post
    | _ => exact hlive

theorem post_tearDown (sessionId : UInt16) (reason : TeardownReason) (hlive : Live core) :
    Ends (tearDown env sessionId reason) core (Post env) := by
  refine Ends.seq (live_dispatchTeardown env sessionId hlive) ?_ fun _ h => .inl h
  intro _ core' h
  exact (post_dispatch env (env.handler.subscriberDisconnected sessionId reason) rfl h).mono
    fun _ _ h => h.post

theorem live_enqueues (set : HashSet UInt16) (hlive : Live core) :
    Live { core with subscriberEnqueues := set } :=
  hlive.neutral ⟨rfl, rfl, rfl, rfl, rfl, rfl⟩ rfl (List.append_nil _).symm (by simp) (by simp)

theorem over_enqueues {reason : ExitReason} (set : HashSet UInt16) (h : Over reason core) :
    Over reason { core with subscriberEnqueues := set } :=
  ⟨⟨h.ledger.peer, h.ledger.keys, h.ledger.settled, h.ledger.decided, h.ledger.installed,
    h.ledger.kept⟩, h.entries, h.asyncEntries, h.sent, h.contained⟩

theorem lockEnqueues_free (f : HashSet UInt16 → HashSet UInt16) (h : core.poisoned = false) :
    lockEnqueues f core =
      (.done (), { core with subscriberEnqueues := f core.subscriberEnqueues }) := by
  simp [lockEnqueues, Code.bind_apply, h]

theorem lockEnqueues_poisoned (f : HashSet UInt16 → HashSet UInt16) (h : core.poisoned = true) :
    lockEnqueues f core = Code.unwind core := by
  simp [lockEnqueues, Code.bind_apply, h]

theorem live_lockEnqueues (f : HashSet UInt16 → HashSet UInt16) (hlive : Live core) :
    Ends (lockEnqueues f) core fun o core' =>
      match o with
      | .done _ => Live core'
      | .panicked => False := by
  unfold Ends
  rw [lockEnqueues_free f hlive.poisoned]
  exact live_enqueues (f core.subscriberEnqueues) hlive

theorem post_connectSubscriber (sessionId : UInt16) (hlive : Live core) :
    Ends (connectSubscriber env sessionId) core (Post env) := by
  refine Ends.seq (live_lockEnqueues _ hlive) ?_ fun _ h => h.elim
  intro _ core₁ hlive₁
  refine Ends.seq (post_dispatch env (env.handler.subscriberConnected sessionId) rfl hlive₁) ?_
    fun _ h => .inl h
  intro outcome core₂ h
  cases outcome with
  | cont =>
    refine Ends.seq (live_lockEnqueues _ h) ?_ fun _ h => h.elim
    exact fun _ _ h => Ends.pure h
  | exit reason =>
    obtain ⟨hover, hpoisoned⟩ := h
    cases hp : core₂.poisoned with
    | false =>
      refine Ends.bind (Ends.congr (Ends.pure ?_) (lockEnqueues_free _ hp))
      exact over_enqueues _ hover
    | true =>
      refine Ends.bind (Ends.congr ?_ (lockEnqueues_poisoned _ hp))
      obtain hfalse | ⟨s, hs⟩ := hpoisoned
      · exact absurd (hfalse.symm.trans hp) (by decide)
      · exact .inr ⟨⟨reason, hover⟩, sessionId, s, hs⟩

theorem post_dispatchFrame (direct : Bool) (sessionId : UInt16) (frame : ServiceFrame)
    (hlive : Live core) : Ends (dispatchFrame env direct sessionId frame) core (Post env) := by
  cases frame with
  | notification inner => exact post_dispatchNotification env sessionId inner hlive
  | request token inner =>
    exact post_dispatchRequestWithContext env direct sessionId token inner hlive
  | reply token bytes => exact post_dispatchReply env sessionId token bytes hlive
  | failed token => exact post_dispatchFailed env sessionId token hlive

theorem post_exec (op : Op) (hlive : Live core) :
    Ends (op.exec env) core fun o core' =>
      Post env o core' ∨ o = .panicked ∧ ∃ frame, env.pc.frameToAllocvec frame = none := by
  cases op with
  | handle msg => exact (post_handle env msg hlive).mono fun _ _ h => .inl h
  | service direct sessionId frame =>
    exact (post_dispatchFrame env direct sessionId frame hlive).mono fun _ _ h => .inl h
  | tearDown sessionId reason =>
    exact (post_tearDown env sessionId reason hlive).mono fun _ _ h => .inl h
  | connectSubscriber sessionId =>
    exact (post_connectSubscriber env sessionId hlive).mono fun _ _ h => .inl h
  | syncRequest req =>
    refine Ends.seq (live_processSyncRequest env req hlive) ?_ fun _ h => .inr ⟨rfl, h⟩
    exact fun _ _ h => Ends.pure (.inl h)
  | write payload =>
    have hwrite : Stable (Functor.discard (trySend env 0 payload)) :=
      stable_bind (stable_trySend env 0 payload) fun _ => stable_pure _
    refine Ends.seq (hwrite core hlive) ?_ fun _ h => h.elim
    exact fun _ _ h => Ends.pure (.inl h)

theorem ended_channelClosed (hlive : Live core) :
    Ends (channelClosed env) core (Leaves some Live Over (Escaped env)) := by
  refine Ends.seq (post_connectionLost env hlive) ?_ fun _ h => h
  intro outcome core' h
  cases outcome with
  | exit reason => exact h
  | cont =>
    refine Ends.seq (post_runDestruction env h .disconnected) ?_ fun _ h => .inl h
    exact fun _ _ h => Ends.pure h.1

theorem ended_infraError (hlive : Live core) :
    Ends (infraError env) core (Leaves some Live Over (Escaped env)) := by
  refine Ends.seq (post_runDestruction env hlive .infraError) ?_ fun _ h => .inl h
  exact fun _ _ h => Ends.pure h.1

theorem leaves_of_post {o : Outcome DispatchOutcome} (h : Post env o core) :
    Leaves ofOutcome Live Over (Escaped env) o core := by
  cases o with
  | panicked => exact h
  | done outcome =>
    cases outcome with
    | cont => exact h
    | exit reason => exact h

theorem rules_live (hframes : env.pc.FrameRoundTrip) : Rules env Live Over (Escaped env) where
  channelClosed _ hlive := ended_channelClosed env hlive
  infraError _ hlive := ended_infraError env hlive
  exec op core hlive := by
    apply (post_exec env op hlive).mono
    intro o core' ho
    obtain ho | ⟨-, frame, hnone⟩ := ho
    · exact leaves_of_post env ho
    · obtain ⟨bytes, hbytes, -⟩ := hframes frame
      rw [hnone] at hbytes
      cases hbytes

theorem live_new (handler : H) (primaryConnection : PeerScope) :
    Live (LooperCore.new handler primaryConnection) := by
  refine ⟨⟨⟨rfl, ?_, ?_, ?_, ?_, ?_⟩, ?_, ?_, ?_⟩, rfl, rfl, rfl, ?_⟩
  all_goals simp [LooperCore.new, Pending, PendingAsync, sessionOf, ActiveSession.new,
    RequestCorrelator.new, RequestCorrelator.setCap, RequestCorrelator.sessionOf]

theorem live_of_exec {op : Op} (hlive : Live core)
    (hexec : op.exec env core = (.done .cont, core')) : Live core' := by
  have hpost := post_exec env op hlive
  unfold Ends at hpost
  rw [hexec] at hpost
  obtain hpost | ⟨hpanic, -⟩ := hpost
  · exact hpost
  · cases hpanic

theorem live_of_reachable (h : Reachable env core) : Live core := by
  induction h with
  | start hcore =>
    obtain ⟨handler, primaryConnection, rfl⟩ := hcore
    exact live_new handler primaryConnection
  | step op _ _ hstep hlive => exact live_of_exec env hlive ((step_cores env).mp hstep)

end Pane.LooperSafety
