import Pane.EntrySteps
import Pane.PostcardFormat
import Pane.UnsentRequests

namespace Pane.TryRequests

open Pane.HashTable Pane.Messages Pane.Correlator Pane.Callbacks Pane.Unwinding Pane.LooperState
open Pane.CoreDispatch Pane.CoreRequest Pane.CoreRuns Pane.RequestLedger Pane.RequestSafety
open Pane.EntrySteps Pane.UnsentRequests Pane.PostcardFormat
open Pane.CoreSteps (nextToken)
open Pane.Unwinding.Code (unwind gets)

variable {H M : Type} (env : Env H) {core core' : LooperCore H} {t : Token} {direct : Bool}
  {handle : ServiceHandle} {entry : DispatchEntry H}

/-- `try_send_request` with its message, which it gives back when the request
cannot be sent. The `CancelHandle` that it returns holds the token. -/
def trySendRequest (direct : Bool) (handle : ServiceHandle) (toAllocvec : M → Option Bytes)
    (msg : M) (entry : DispatchEntry H) : Loop H (Except (M × Backpressure) Token) := do
  if ← gets (·.activeSession.wouldExceedCap) then return .error (msg, .capExceeded)
  else
    let token ← insert handle.sessionId entry
    match toAllocvec msg with
    | none => unwind
    | some msgBytes =>
      match ← sendRequestFrame env direct handle.sessionId token (handle.tag :: msgBytes) with
      | .ok () => return .ok token
      | .error reason =>
        ctxCancel token
        return .error (msg, reason)

theorem trySendRequest_eq (toAllocvec : M → Option Bytes) (msg : M) :
    CoreRequest.trySendRequest env direct handle (toAllocvec msg) entry = (do
      match ← trySendRequest env direct handle toAllocvec msg entry with
      | .ok _ => return .ok ()
      | .error (_, reason) => return .error reason) := by
  funext core
  rw [CoreRequest.trySendRequest, trySendRequest, Code.bind_apply, Code.bind_apply, Code.bind_apply,
    Code.gets_apply]
  dsimp only
  cases core.activeSession.wouldExceedCap with
  | true => rfl
  | false =>
    simp only [installAndSend, Code.bind_apply, Bool.false_eq_true, ↓reduceIte, insert_apply]
    cases toAllocvec msg with
    | none => rfl
    | some msgBytes =>
      simp only [Code.bind_apply]
      generalize sendRequestFrame env direct handle.sessionId
        core.activeSession.correlator.nextToken (handle.tag :: msgBytes)
        (inserted handle.sessionId entry core) = sent
      obtain ⟨answer, core₁⟩ := sent
      cases answer with
      | panicked => rfl
      | done answer =>
        cases answer with
        | ok u => rfl
        | error reason =>
          simp only [Code.bind_apply]
          cases ctxCancel core.activeSession.correlator.nextToken core₁ with
          | mk o core₂ => cases o <;> rfl

/-- The states in which a request handler runs: when it is entered, and after
whatever it has done so far. -/
inductive Serving (direct : Bool) : LooperCore H → Prop
  | enter {core : LooperCore H} {code : PortId → H → RequestCallback H} (hcore : Reached env core)
    (sessionId : UInt16) (token : Token) (inner : Bytes)
    (hcode : (env.serviceDispatch.requestReceivers.lookup sessionId).bind (·.accept inner) =
      some code) :
    Serving direct ((openPort sessionId token inner
      (core.log (.handed sessionId (.request token inner)))).2.log
        (.called (.receiveRequest sessionId token inner)))
  | handler {core : LooperCore H} (hcore : Serving direct core) (handler : H) :
    Serving direct { core with handler }
  | effect {core core' : LooperCore H} (hcore : Serving direct core) (call : Call)
    (effect : CtxEffect H) {answer : Except Backpressure Unit}
    (hperform : performCtx env direct call effect core = (.done answer, core')) :
    Serving direct core'

variable {env}

theorem tidy_of_serving (h : Serving env direct core) : Tidy core := by
  induction h with
  | @enter core code hcore sessionId token inner hcode =>
    have hlog {core : LooperCore H} {e : Event} (he : IsCalm e) : Course core (core.log e) :=
      .note he rfl rfl rfl rfl
    have hopened : Course (core.log (.handed sessionId (.request token inner)))
        (openPort sessionId token inner (core.log (.handed sessionId (.request token inner)))).2 :=
      .note (e := .portOpened _ sessionId token inner) ⟨rfl, rfl⟩ rfl rfl rfl rfl
    have hcourse := ((hlog ⟨rfl, rfl⟩).trans hopened).trans
      (hlog (e := .called (.receiveRequest sessionId token inner)) ⟨rfl, rfl⟩)
    exact tidy_course hcourse (tidy_of_reached hcore)
  | @handler core _ handler ih =>
    have hcourse : Course core { core with handler } := .silent rfl rfl rfl (.refl _)
    exact tidy_course hcourse ih
  | @effect core core' _ call effect answer hperform ih =>
    have hcourse : Ends (performCtx env direct call effect) core fun _ core' => Course core core' :=
      (paces_performCtx direct call effect).always core
    unfold Ends at hcourse
    rw [hperform] at hcourse
    exact tidy_course hcourse ih

theorem serving_runScript {call : Call} (script : RequestCallback H) (h : Serving env direct core) :
    Ends (runScript (performCtx env direct call) script) core fun o core' =>
      o ≠ .panicked → Serving env direct core' := by
  induction script generalizing core with
  | ret handler flow => exact fun _ => .handler h handler
  | panic handler => exact fun hpanic => absurd rfl hpanic
  | act handler effect next ih =>
    apply Ends.modify
    apply Ends.bind
    unfold Ends
    cases hperform : performCtx env direct call effect { core with handler } with
    | mk o core' =>
      cases o with
      | panicked => exact fun hpanic => absurd rfl hpanic
      | done answer => exact ih answer (.effect (.handler h handler) call effect hperform)

structure Untouched (core core' : LooperCore H) : Prop where
  trace : ∃ es, core'.trace = core.trace ++ es ∧ ∀ service payload, .sent service payload ∉ es
  dispatch : core'.dispatch = core.dispatch
  tokenSessions : core'.activeSession.correlator.tokenSessions =
    core.activeSession.correlator.tokenSessions
  outstandingRequests : core'.activeSession.correlator.outstandingRequests =
    core.activeSession.correlator.outstandingRequests
  requestCap : core'.activeSession.correlator.requestCap = core.activeSession.correlator.requestCap
  next : nextToken core ≤ nextToken core'

variable (env) in
/-- The request has an entry of its own under a token that was never handed out
before, and its frame followed the entry. -/
structure Started (t : Token) (handle : ServiceHandle) (msgBytes : Bytes) (entry : DispatchEntry H)
    (core core' : LooperCore H) : Prop where
  unused : ∀ e ∈ core.trace, made e ≠ some t
  free : ¬ Pending core t ∧ ¬ PendingAsync core t ∧ sessionOf core t = none
  dispatch : core'.dispatch =
    ⟨core.dispatch.entries.insert (core.primaryConnection, t) entry, core.dispatch.asyncEntries⟩
  session : sessionOf core' t = some handle.sessionId
  trace : ∃ outer, env.pc.frameToAllocvec (.request t (handle.tag :: msgBytes)) = some outer ∧
    core'.trace =
      core.trace ++ [.installed t handle.sessionId, .sent handle.sessionId outer, .queued t]

theorem Untouched.refl (core : LooperCore H) : Untouched core core :=
  ⟨⟨[], by simp, by simp⟩, rfl, rfl, rfl, rfl, Nat.le_refl _⟩

theorem ctxCancel_pending (h : Pending core t) :
    ctxCancel t core = (.done (), rolledBack t core) := by
  have hcancel : cancel t core =
      (.done true, (removeEntry (core.primaryConnection, t) core).log (.cancelled t)) := by
    have hmem : (core.primaryConnection, t) ∈ core.dispatch.entries := h
    simp [cancel, Code.bind_apply, hmem]
  simp only [ctxCancel, Code.bind_apply, hcancel]
  rfl

theorem untouched_rolledBack (h : Tidy core) (outer : Bytes) :
    Untouched core (rolledBack (nextToken core)
      ((inserted handle.sessionId entry core).log (.refused handle.sessionId outer))) := by
  have hfree : (core.primaryConnection, nextToken core) ∉ core.dispatch.entries :=
    h.free_nextToken.1
  have hsession : nextToken core ∉ core.activeSession.correlator.tokenSessions :=
    fun hmem => Nat.lt_irrefl _ (core.activeSession.correlator.below _ hmem)
  refine ⟨⟨[.installed (nextToken core) handle.sessionId, .refused handle.sessionId outer,
    .cancelled (nextToken core)], ?_, by simp⟩, ?_, ?_, ?_, rfl, Nat.le_succ _⟩
  · simp [rolledBack, removeEntry, inserted, LooperCore.log, nextToken]
  · show (⟨(core.dispatch.entries.insert (core.primaryConnection, nextToken core) entry).erase
      (core.primaryConnection, nextToken core), core.dispatch.asyncEntries⟩ : Dispatch H) =
        core.dispatch
    rw [erase_insert hfree]
  · exact erase_insert hsession handle.sessionId
  · exact Nat.add_sub_cancel _ 1

theorem trySendRequest_apply {toAllocvec : M → Option Bytes} {msg : M} {msgBytes : Bytes}
    (hcap : core.activeSession.wouldExceedCap = false) (hmsg : toAllocvec msg = some msgBytes) :
    trySendRequest env direct handle toAllocvec msg entry core = (do
      match ← sendRequestFrame env direct handle.sessionId (nextToken core)
          (handle.tag :: msgBytes) with
      | .ok () => return .ok (nextToken core)
      | .error reason =>
        ctxCancel (nextToken core)
        return .error (msg, reason) : Loop H (Except (M × Backpressure) Token))
      (inserted handle.sessionId entry core) := by
  rw [trySendRequest, Code.bind_apply, Code.gets_apply]
  dsimp only
  rw [hcap, hmsg]
  rfl

variable (env) in
def AllOrNothing (handle : ServiceHandle) (toAllocvec : M → Option Bytes) (msg : M)
    (entry : DispatchEntry H) (core : LooperCore H) (o : Outcome (Except (M × Backpressure) Token))
    (core' : LooperCore H) : Prop :=
  match o with
  | .done (.error (m, _)) => m = msg ∧ Untouched core core'
  | .done (.ok token) => ∃ msgBytes, toAllocvec msg = some msgBytes ∧
      Started env token handle msgBytes entry core core'
  | .panicked => True

theorem started_of_sent {msgBytes outer : Bytes} (htidy : Tidy core)
    (houter : env.pc.frameToAllocvec (.request (nextToken core) (handle.tag :: msgBytes)) =
      some outer)
    (htrace : core'.trace = (inserted handle.sessionId entry core).trace ++
      [.sent handle.sessionId outer, .queued (nextToken core)])
    (hdispatch : core'.dispatch = (inserted handle.sessionId entry core).dispatch)
    (hsession : core'.activeSession = (inserted handle.sessionId entry core).activeSession) :
    Started env (nextToken core) handle msgBytes entry core core' := by
  refine ⟨htidy.unused_nextToken, ⟨htidy.free_nextToken.1, htidy.free_nextToken.2, ?_⟩,
    hdispatch, ?_, outer, houter, ?_⟩
  · exact RequestCorrelator.sessionOf_nextToken _
  · rw [sessionOf, hsession]
    exact (sessionOf_allocateToken _ _ _).trans (if_pos rfl)
  · rw [htrace]
    simp [inserted, LooperCore.log, nextToken]

/-- `try_send_request` is all or nothing. When it gives the message back, nothing of
the request is left behind; when it returns a `CancelHandle`, the request has a new
entry, and its frame has followed it. -/
theorem try_send_request_all_or_nothing (hserving : Serving env direct core)
    (handle : ServiceHandle) (toAllocvec : M → Option Bytes) (msg : M) (entry : DispatchEntry H) :
    Ends (trySendRequest env direct handle toAllocvec msg entry) core
      (AllOrNothing env handle toAllocvec msg entry core) := by
  have htidy := tidy_of_serving hserving
  cases hcap : core.activeSession.wouldExceedCap with
  | true =>
    unfold Ends
    rw [trySendRequest, Code.bind_apply, Code.gets_apply]
    dsimp only
    rw [hcap]
    exact ⟨rfl, .refl core⟩
  | false =>
    cases hmsg : toAllocvec msg with
    | none =>
      unfold Ends
      rw [trySendRequest, Code.bind_apply, Code.gets_apply]
      dsimp only
      rw [hcap, hmsg]
      trivial
    | some msgBytes =>
      refine Ends.congr (Ends.bind ?_) (trySendRequest_apply hcap hmsg)
      unfold Ends
      cases hframe :
          env.pc.frameToAllocvec (.request (nextToken core) (handle.tag :: msgBytes)) with
      | none =>
        rw [sendRequestFrame, hframe]
        trivial
      | some outer =>
        cases direct with
        | true =>
          rw [sendRequestFrame_direct env hframe]
          refine ⟨msgBytes, hmsg, started_of_sent htidy hframe ?_ rfl rfl⟩
          simp [LooperCore.log, LooperCore.note]
        | false =>
          cases hanswer : env.trySend (inserted handle.sessionId entry core).trace.length with
          | ok u =>
            rw [sendRequestFrame_ok env hframe hanswer]
            exact ⟨msgBytes, hmsg, started_of_sent htidy hframe (by simp [LooperCore.log]) rfl rfl⟩
          | error reason =>
            rw [sendRequestFrame_error env hframe hanswer]
            have hpending : Pending ((inserted handle.sessionId entry core).log
                (.refused handle.sessionId outer)) (nextToken core) := by
              simp [Pending, inserted, LooperCore.log, nextToken]
            show Ends (do
              ctxCancel (nextToken core)
              return .error (msg, reason) : Loop H (Except (M × Backpressure) Token))
              ((inserted handle.sessionId entry core).log (.refused handle.sessionId outer))
              (AllOrNothing env handle toAllocvec msg entry core)
            apply Ends.bind
            unfold Ends
            rw [ctxCancel_pending hpending]
            exact ⟨rfl, untouched_rolledBack htidy outer⟩

section Samples

def busy : Env Unit :=
  { Env.idle postcard with
    trySend := fun _ => .error .channelFull
    serviceDispatch := ⟨∅, AList.insert 5 ⟨1, fun _ => some fun _ h => .ret h .cont⟩ ∅⟩ }

def entered : LooperCore Unit :=
  (openPort 5 0 [1] ((RequestCap.capped () ⟨1⟩ 1).log (.handed 5 (.request 0 [1])))).2.log
    (.called (.receiveRequest 5 0 [1]))

theorem try_send_request_all_or_nothing_busy :
    let handle : ServiceHandle := ⟨3, 9⟩
    let refused := trySendRequest busy false handle some [7] SyncRequest.entry entered
    let sent := trySendRequest busy true handle some [7] SyncRequest.entry entered
    refused.1 = .done (.error ([7], .channelFull)) ∧ Untouched entered refused.2 ∧
      sent.1 = .done (.ok 0) ∧ Started busy 0 handle [7] SyncRequest.entry entered sent.2 := by
  intro handle refused sent
  have hserving (direct : Bool) : Serving busy direct entered :=
    .enter (reached_new busy () ⟨1⟩ 1) 5 0 [1] rfl
  have hrefused := try_send_request_all_or_nothing (hserving false) handle some [7]
    SyncRequest.entry
  have hsent := try_send_request_all_or_nothing (hserving true) handle some [7] SyncRequest.entry
  obtain ⟨-, huntouched⟩ := hrefused
  obtain ⟨msgBytes, hbytes, hstarted⟩ := hsent
  cases hbytes
  exact ⟨rfl, huntouched, rfl, hstarted⟩

end Samples

end Pane.TryRequests
