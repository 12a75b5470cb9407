import Pane.ExactlyOnce
import Pane.PanicContainment

namespace Pane.UnsentRequests

open Pane.HashTable Pane.Messages Pane.Correlator Pane.Callbacks Pane.Unwinding Pane.LooperState
open Pane.CoreDispatch Pane.CoreRequest Pane.Looper Pane.CoreRuns Pane.CallbackEffects
open Pane.RequestLedger Pane.LiveCore Pane.Resolutions Pane.RequestSafety Pane.LooperSafety
open Pane.ExactlyOnce Pane.PanicContainment Pane.PostcardFormat

variable {H : Type} (env : Env H) {core core₁ final : LooperCore H} {t : Token} {direct : Bool}
  {handle : ServiceHandle} {msg : Option Bytes} {entry : DispatchEntry H}

/-- The frame of a request that is sent now finds its way out: into the buffer of
the shared writer, or into the channel. The answer of the channel comes after the
installation of the entry. -/
def Taken (direct : Bool) (core : LooperCore H) : Prop :=
  direct = true ∨ env.trySend (core.trace.length + 1) = .ok ()

/-- The frame of request `t` is on its way, and its entry is kept for the answer. -/
structure Underway (t : Token) (handle : ServiceHandle) (entry : DispatchEntry H)
    (core core₁ : LooperCore H) : Prop where
  sent : ∃ payload outer, env.pc.frameToAllocvec (.request t (handle.tag :: payload)) = some outer ∧
    core₁.trace = core.trace ++ [.installed t handle.sessionId, .sent handle.sessionId outer, .queued t]
  installed : core₁.dispatch.entries.lookup (core₁.primaryConnection, t) = some entry

structure RolledBack (t : Token) (handle : ServiceHandle) (core core₁ : LooperCore H) : Prop where
  refused : ∃ outer, core₁.trace = core.trace ++
    [.installed t handle.sessionId, .refused handle.sessionId outer, .cancelled t]
  gone : ¬ Pending core₁ t

theorem length_inserted (sessionId : UInt16) (entry : DispatchEntry H) (core : LooperCore H) :
    (inserted sessionId entry core).trace.length = core.trace.length + 1 := by
  simp [inserted, LooperCore.log]

theorem lookup_inserted (sessionId : UInt16) (entry : DispatchEntry H) (core : LooperCore H) :
    (inserted sessionId entry core).dispatch.entries.lookup
      (core.primaryConnection, core.activeSession.correlator.nextToken) = some entry := by
  simp [inserted, LooperCore.log]

section Frame

variable {sessionId : UInt16} {payload outer : Bytes}

theorem sendRequestFrame_direct
    (hframe : env.pc.frameToAllocvec (.request t payload) = some outer) :
    sendRequestFrame env true sessionId t payload core =
      (.done (.ok ()), ((core.note .direct).log (.sent sessionId outer)).log (.queued t)) := by
  simp [sendRequestFrame, hframe, Code.bind_apply, log]

theorem sendRequestFrame_ok (hframe : env.pc.frameToAllocvec (.request t payload) = some outer)
    (hanswer : env.trySend core.trace.length = .ok ()) :
    sendRequestFrame env false sessionId t payload core =
      (.done (.ok ()), (core.log (.sent sessionId outer)).log (.queued t)) := by
  simp [sendRequestFrame, hframe, Code.bind_apply, trySend_apply, hanswer, log]

theorem sendRequestFrame_error {reason : Backpressure}
    (hframe : env.pc.frameToAllocvec (.request t payload) = some outer)
    (hanswer : env.trySend core.trace.length = .error reason) :
    sendRequestFrame env false sessionId t payload core =
      (.done (.error reason), core.log (.refused sessionId outer)) := by
  simp [sendRequestFrame, hframe, Code.bind_apply, trySend_apply, hanswer]

end Frame

theorem ends_installAndSend (hlive : Live core) :
    Ends (installAndSend env direct handle msg entry) core fun o core₁ => o ≠ .panicked →
      (Taken env direct core →
        Underway env core.activeSession.correlator.nextToken handle entry core core₁) ∧
      (¬ Taken env direct core →
        RolledBack core.activeSession.correlator.nextToken handle core core₁) := by
  have hfresh := fresh_inserted handle.sessionId entry hlive
  have hlookup := lookup_inserted handle.sessionId entry core
  have hlength := length_inserted handle.sessionId entry core
  refine Ends.bind (Ends.congr (Ends.pure ?_) (insert_apply handle.sessionId entry core))
  cases msg with
  | none => exact fun h => absurd rfl h
  | some payload =>
    dsimp only
    cases hframe : env.pc.frameToAllocvec
        (.request core.activeSession.correlator.nextToken (handle.tag :: payload)) with
    | none =>
      rw [sendRequestFrame, hframe]
      exact fun h => absurd rfl h
    | some outer =>
      cases direct with
      | true =>
        refine Ends.bind (Ends.congr (Ends.pure ?_) (sendRequestFrame_direct env hframe))
        refine fun _ => ⟨fun _ => ⟨⟨payload, outer, hframe, ?_⟩, hlookup⟩, fun h => absurd (.inl rfl) h⟩
        simp [inserted, LooperCore.log, LooperCore.note]
      | false =>
        cases hanswer : env.trySend (core.trace.length + 1) with
        | ok u =>
          rw [← hlength] at hanswer
          refine Ends.bind (Ends.congr (Ends.pure ?_) (sendRequestFrame_ok env hframe hanswer))
          rw [hlength] at hanswer
          refine fun _ => ⟨fun _ => ⟨⟨payload, outer, hframe, ?_⟩, hlookup⟩, fun h => ?_⟩
          · simp [inserted, LooperCore.log]
          · exact absurd (.inr hanswer) h
        | error reason =>
          rw [← hlength] at hanswer
          have hrefused := fresh_still hfresh (.single ⟨rfl, rfl, rfl, rfl, rfl, rfl⟩ rfl rfl rfl :
            Still (inserted handle.sessionId entry core)
              ((inserted handle.sessionId entry core).log (.refused handle.sessionId outer)))
          refine Ends.bind (Ends.congr (Ends.pure ?_) (sendRequestFrame_error env hframe hanswer))
          refine Ends.bind (Ends.congr (Ends.pure ?_) (ctxCancel_fresh hrefused))
          rw [hlength] at hanswer
          refine fun _ => ⟨fun h => ?_, fun _ => ⟨⟨outer, ?_⟩, ?_⟩⟩
          · obtain hdirect | hok := h
            · exact Bool.noConfusion hdirect
            · exact absurd (hanswer.symm.trans hok) (by simp)
          · simp [rolledBack, removeEntry, inserted, LooperCore.log]
          · exact fun hp => (pending_removeEntry.mp hp).1 rfl

theorem ends_sendRequest (hlive : Live core) :
    Ends (sendRequest env direct handle msg entry) core fun o core₁ => o = .done () →
      Live core₁ ∧
        (Taken env direct core →
          Underway env core.activeSession.correlator.nextToken handle entry core core₁) ∧
        (¬ Taken env direct core →
          RolledBack core.activeSession.correlator.nextToken handle core core₁) := by
  have hkeeps : Moves Keeps (Shakes .disconnected) (installAndSend env direct handle msg entry) :=
    keeps_installAndSend env direct handle msg entry
  apply Ends.gets
  split
  · exact fun h => nomatch h
  · refine Ends.seq ((hkeeps core).and (ends_installAndSend env hlive)) ?_ fun _ _ h => nomatch h
    exact fun answer core₁ h => Ends.pure fun _ => ⟨h.1 hlive, h.2 (by simp)⟩

def Last (handler : H) (primaryConnection : PeerScope) (final : LooperCore H) : Prop :=
  (∃ msgs o, CoreRequest.run env msgs (LooperCore.new handler primaryConnection) = (o, final)) ∨
    ∃ setupFails ticks o, o ≠ .done none ∧
      Looper.run env setupFails ticks (LooperCore.new handler primaryConnection) = (o, final)

theorem over_of_last (hframes : env.pc.FrameRoundTrip) {handler : H} {primaryConnection : PeerScope}
    (h : Last env handler primaryConnection final) (hcalm : Undisturbed final) :
    ∃ reason, Over reason final := by
  have hescaped (hend : Escaped env final) : ∃ reason, Over reason final := by
    obtain hbroke | ⟨hover, -⟩ := hend
    · exact absurd hbroke (not_cascadeBroke env hcalm)
    · exact hover
  obtain ⟨msgs, o, hrun⟩ | ⟨setupFails, ticks, o, hended, hrun⟩ := h
  · have hend := (rules_live env hframes).coreRun msgs (live_new handler primaryConnection)
    unfold Ends at hend
    rw [hrun] at hend
    cases o with
    | done reason => exact ⟨reason, hend⟩
    | panicked => exact hescaped hend
  · have hend := (rules_live env hframes).looperRun setupFails ticks
      (live_new handler primaryConnection)
    unfold Ends at hend
    rw [hrun] at hend
    cases o with
    | panicked => exact hescaped hend
    | done exit =>
      cases exit with
      | none => exact absurd rfl hended
      | some reason => exact ⟨reason, hend⟩

/-- Either the frame is on its way, and the entry waits until one of its closures
is called; or the failure closure is called before the end. -/
def Reported (t : Token) (handle : ServiceHandle) (entry : DispatchEntry H)
    (core core₁ final : LooperCore H) : Prop :=
  (Underway env t handle entry core core₁ ∧ ∀ core₂ : LooperCore H, Ledger core₂ →
    core₁.trace <+: core₂.trace → Pending core₂ t ∨ core₂.trace.countP (invokes t) = 1) ∨
  .called (.onFailed t) ∈ final.trace

theorem invoked_of_queued (h : Ledger core) (hqueued : .queued t ∈ core.trace) :
    Pending core t ∨ core.trace.countP (invokes t) = 1 := by
  have hsettled := h.settled t
  have hdecided := h.decided t
  have hle := h.installed_le_one t
  have hone : 0 < core.trace.countP (fun e => e = .queued t) :=
    List.countP_pos_iff.mpr ⟨_, hqueued, by simp⟩
  rw [countP_settles] at hsettled
  rw [countP_decides] at hdecided
  by_cases hp : Pending core t
  · exact .inl hp
  · rw [if_neg hp] at hsettled
    exact .inr (by omega)

theorem not_invoked_of_cancelled (h : Ledger core) (hcancelled : .cancelled t ∈ core.trace) :
    core.trace.countP (invokes t) = 0 := by
  have hsettled := h.settled t
  have hle := h.installed_le_one t
  have hone : 0 < core.trace.countP (fun e => e = .cancelled t) :=
    List.countP_pos_iff.mpr ⟨_, hcancelled, by simp⟩
  rw [countP_settles] at hsettled
  omega

/-- Any call of `send_request` that returns, in a run up to its end: the caller
hears of the request if and only if its frame is taken. Otherwise both closures
are dropped. -/
theorem request_reported_iff (hframes : env.pc.FrameRoundTrip) (handler : H)
    (primaryConnection : PeerScope) (core : LooperCore H) (hlive : Live core) (direct : Bool)
    (handle : ServiceHandle) (msg : Option Bytes) (entry : DispatchEntry H) (core₁ : LooperCore H)
    (hcall : sendRequest env direct handle msg entry core = (.done (), core₁))
    (final : LooperCore H) (hlast : Last env handler primaryConnection final)
    (hcalm : Undisturbed final) (hlater : core₁.trace <+: final.trace) :
    let t := core.activeSession.correlator.nextToken
    (Reported env t handle entry core core₁ final ↔ Taken env direct core) ∧
      (Taken env direct core → final.trace.countP (invokes t) = 1) ∧
      (¬ Taken env direct core → ¬ Pending core₁ t ∧ final.trace.countP (invokes t) = 0) := by
  intro t
  obtain ⟨reason, hover⟩ := over_of_last env hframes hlast hcalm
  have hend : Ends (sendRequest env direct handle msg entry) core _ := ends_sendRequest env hlive
  unfold Ends at hend
  rw [hcall] at hend
  obtain ⟨hlive₁, htaken, hrefused⟩ := hend rfl
  have hdropped (h : ¬ Taken env direct core) :
      ¬ Pending core₁ t ∧ core₁.trace.countP (invokes t) = 0 ∧ final.trace.countP (invokes t) = 0 := by
    obtain ⟨⟨outer, htrace⟩, hgone⟩ := hrefused h
    have hmem : .cancelled t ∈ core₁.trace := by
      rw [htrace]
      simp [t]
    exact ⟨hgone, not_invoked_of_cancelled hlive₁.books.toLedger hmem,
      not_invoked_of_cancelled hover.ledger (hlater.subset hmem)⟩
  have hkept (h : Taken env direct core) : Underway env t handle entry core core₁ ∧
      .queued t ∈ core₁.trace := by
    refine ⟨htaken h, ?_⟩
    obtain ⟨payload, outer, -, htrace⟩ := (htaken h).sent
    rw [htrace]
    simp [t]
  refine ⟨⟨fun hreported => ?_, fun h => Or.inl ⟨(hkept h).1, fun core₂ hledger hgrown => ?_⟩⟩,
    fun h => ?_, fun h => ⟨(hdropped h).1, (hdropped h).2.2⟩⟩
  · by_contra h
    obtain ⟨hgone, hzero, hzero'⟩ := hdropped h
    obtain ⟨-, hstays⟩ | hfailed := hreported
    · obtain hp | hone := hstays core₁ hlive₁.books.toLedger (List.prefix_refl _)
      · exact hgone hp
      · exact absurd (hzero.symm.trans hone) (by decide)
    · exact absurd (List.countP_eq_zero.mp hzero' _ hfailed) (by simp [invokes])
  · exact invoked_of_queued hledger (hgrown.subset (hkept h).2)
  · exact (settledOnce_of_over hover).once t (hlater.subset (hkept h).2)

section Samples

/-- The state in which a request handler starts that was called first of all. -/
def asked : LooperCore Unit :=
  (openPort 5 0 [7] ((LooperCore.new () ⟨1⟩).log (.handed 5 (.request 0 [7])))).2.log
    (.called (.receiveRequest 5 0 [7]))

theorem live_asked : Live asked := by
  have hhanded := live_log (e := .handed 5 (.request 0 [7])) rfl (by simp)
    (live_new () (⟨1⟩ : PeerScope))
  have hopened := stable_openPort 5 0 [7] _ hhanded
  exact live_log rfl (by simp) hopened

theorem request_reported_of_forwarding :
    let final := (CoreRequest.run (forwarding SyncRequest.entry) [requestToForward]
      (LooperCore.new () ⟨1⟩)).2
    .called (.onFailed 0) ∈ final.trace ∧ final.trace.countP (invokes 0) = 1 := by
  intro final
  have hcall : sendRequest (forwarding SyncRequest.entry) false ⟨1, 9⟩ (some []) SyncRequest.entry
      asked = (.done (), (sendRequest (forwarding SyncRequest.entry) false ⟨1, 9⟩ (some [])
        SyncRequest.entry asked).2) := rfl
  have hlast : Last (forwarding SyncRequest.entry) () ⟨1⟩ final := .inl ⟨[requestToForward], _, rfl⟩
  obtain ⟨-, honce, -⟩ := request_reported_iff (forwarding SyncRequest.entry) postcard_frame () ⟨1⟩
    asked live_asked false ⟨1, 9⟩ (some []) SyncRequest.entry _ hcall final hlast rfl
    (by decide +kernel)
  exact ⟨by decide +kernel, honce (.inr rfl)⟩

/-- The same when the channel is full for a moment. The handler is told nothing. -/
theorem request_dropped :
    let env := { forwarding SyncRequest.entry with
      trySend := fun n => if n = 4 then .error .channelFull else .ok () }
    let run := CoreRequest.run env [requestToForward] (LooperCore.new () ⟨1⟩)
    run.1 = .done .disconnected ∧ .installed 0 1 ∈ run.2.trace ∧
      run.2.notes.head? = some (8, .returned (.receiveRequest 5 0 [7]) .cont) ∧
      run.2.trace.countP (invokes 0) = 0 :=
  ⟨rfl, by decide +kernel, by decide +kernel, by decide +kernel⟩

end Samples

end Pane.UnsentRequests
