import Pane.PanicContainment
import Pane.TryRequests

namespace Pane.TokenTables

open Pane.HashTable Pane.Messages Pane.Correlator Pane.Callbacks Pane.Unwinding Pane.LooperState
open Pane.CallbackEffects Pane.CoreDispatch Pane.CoreRequest Pane.Looper Pane.CoreRuns
open Pane.RequestLedger Pane.Cascades Pane.LiveCore Pane.RequestSafety Pane.LooperSafety
open Pane.CoreMoves Pane.LooperPlan Pane.PanicContainment Pane.LiveMoves Pane.RequestCap
open Pane.EntrySteps Pane.TryRequests Pane.PostcardFormat
open Pane.CoreSteps (nextToken)

variable {H : Type} {env : Env H} {core core' : LooperCore H} {t : Token}

/-- The entries of a looper and the tokens of its correlator are about the same requests. -/
structure Agrees (core : LooperCore H) : Prop where
  disjoint : ∀ t, (core.primaryConnection, t) ∈ core.dispatch.entries →
    (core.primaryConnection, t) ∉ core.dispatch.asyncEntries
  union : ∀ t, t ∈ core.activeSession.correlator.tokenSessions ↔
    (core.primaryConnection, t) ∈ core.dispatch.entries ∨
      (core.primaryConnection, t) ∈ core.dispatch.asyncEntries
  counted : core.activeSession.correlator.outstandingRequests =
    core.activeSession.correlator.tokenSessions.keys.length
  below : ∀ t, t ∈ core.activeSession.correlator.tokenSessions → t < nextToken core

def Resolvable (t : Token) (a : ActiveSession) : Prop :=
  t ∈ a.correlator.tokenSessions ∧ 0 < a.correlator.outstandingRequests

/-- Wherever `record_resolution` is called next, its token is there: after an entry was
fired by a reply or a failure, for each token of a session that is torn down, and after
the entry of a refused request was cancelled. -/
structure Unsaturated (env : Env H) (core : LooperCore H) : Prop where
  reply : ∀ t bytes, Ends (fireReply env t bytes) core fun o core' =>
    ∀ flow, o = .done (some flow) → Resolvable t core'.activeSession
  failed : ∀ t, Ends (fireFailed env t) core fun o core' =>
    ∀ flow, o = .done (some flow) → Resolvable t core'.activeSession
  session : ∀ order sessionId before t after,
    core.activeSession.correlator.tokensForSession order sessionId = before ++ t :: after →
      Resolvable t (before.foldl (fun a tok => a.recordResolution tok) core.activeSession)
  rollback : ∀ direct sessionId entry payload,
    Ends (sendRequestFrame env direct sessionId (nextToken core) payload)
      (insert sessionId entry core).2 fun o core' => ∀ reason, o = .done (.error reason) →
        Resolvable (nextToken core) (cancel (nextToken core) core').2.activeSession

structure Balanced (core : LooperCore H) : Prop where
  counted : core.activeSession.Counted
  drained : core.exitTx ≠ [] → core.activeSession.correlator.tokenSessions = ∅

theorem upkeep_balanced : Upkeep (fun _ : LooperCore H => True) Balanced where
  aside h hcore := by
    refine ⟨h.activeSession ▸ hcore.counted, fun hexit => ?_⟩
    rw [h.activeSession]
    exact hcore.drained (h.exitTx ▸ hexit)
  spend _ hcore := ⟨hcore.counted, hcore.drained⟩
  spendAsync _ hcore := ⟨hcore.counted, hcore.drained⟩
  resolve core t ht hcore := by
    refine ⟨hcore.counted.recordResolution ht, fun hexit => ?_⟩
    rw [hcore.drained hexit] at ht
    exact absurd ht (AList.notMem_empty t)
  spare _ := trivial
  insert sessionId _ hlive _ hcore :=
    ⟨hcore.counted.allocateToken sessionId, fun hexit => absurd hlive.exitTx hexit⟩
  insertAsync sessionId _ hlive hcore :=
    ⟨hcore.counted.allocateToken sessionId, fun hexit => absurd hlive.exitTx hexit⟩

theorem balanced_of_clear {c : RequestCorrelator}
    (h : core.activeSession.correlator = c.clear) : Balanced core := by
  refine ⟨?_, fun _ => ?_⟩
  · rw [ActiveSession.Counted, h]
    rfl
  · rw [h]
    rfl

theorem balanced_runDestruction (reason : ExitReason) (core : LooperCore H) :
    Ends (runDestruction env reason) core fun _ core' => Balanced core' := by
  have hcascade (core : LooperCore H) :
      Ends (cascade env ActiveSession.cascadeConnectionFailure) core fun _ core' =>
        core'.activeSession.correlator = core.activeSession.correlator.clear := by
    refine Ends.gets (Ends.modify (((same_failTokens _).always _).mono fun _ core' h => ?_))
    exact congrArg ActiveSession.correlator h
  refine Ends.modify (Ends.seq (hcascade _) (fun _ core₁ h => ?_) fun _ h => balanced_of_clear h)
  exact Ends.modify (balanced_of_clear h)

theorem saves_runDestruction (reason : ExitReason) :
    Moves (Saves Balanced) (Saves Balanced) (runDestruction env reason) :=
  Moves.of_always fun core => (balanced_runDestruction reason core).mono fun _ _ h _ => h

theorem balanced_channelClosed (hlive : Live core) (hcore : Balanced core) :
    Ends (channelClosed env) core fun _ core' => Balanced core' := by
  have hdispatch := (post_dispatch env env.handler.disconnected
    (rfl : token .disconnected = none) hlive).and
      (saved_dispatch upkeep_balanced saves_runDestruction hcore .disconnected _)
  refine Ends.bind (Ends.seq hdispatch (fun outcome core₁ h => ?_) fun _ h => h.2)
  cases outcome with
  | cont =>
    apply Ends.pure
    exact Ends.seq (balanced_runDestruction .disconnected core₁) (fun _ _ h => h) fun _ h => h
  | exit reason =>
    cases reason with
    | graceful =>
      have hsent : core₁.exitTx ≠ [] := List.ne_nil_of_mem h.1.1.sent
      exact ⟨h.2.counted, fun _ => h.2.drained hsent⟩
    | disconnected => exact h.2
    | failed => exact h.2
    | infraError => exact h.2

theorem balanced_act (act : Act) (hlive : Live core) (hcore : Balanced core) :
    Ends (act.exec env) core fun _ core' => Balanced core' :=
  saved_act upkeep_balanced saves_runDestruction act (balanced_channelClosed hlive hcore) hlive
    hcore fun _ _ => trivial

theorem balanced_capped (handler : H) (primaryConnection : PeerScope) (k : UInt16) :
    Balanced (capped handler primaryConnection k) :=
  ⟨rfl, fun hexit => absurd rfl hexit⟩

theorem agrees_of_live (hlive : Live core) (hcore : Balanced core) : Agrees core := by
  refine ⟨hlive.books.apart, fun t => ?_, hcore.counted, core.activeSession.correlator.below⟩
  rw [mem_tokenSessions, hlive.books.agree]
  simp [Pending, PendingAsync]

theorem agrees_of_over {reason : ExitReason} (hover : Over reason core) (hcore : Balanced core) :
    Agrees core := by
  have hempty := hcore.drained (List.ne_nil_of_mem hover.sent)
  refine ⟨fun t ht => ?_, fun t => ?_, hcore.counted, core.activeSession.correlator.below⟩
  · rw [hover.entries] at ht
    exact absurd ht (AList.notMem_empty _)
  · simp [hempty, hover.entries, hover.asyncEntries]

theorem resolvable_foldl {a : ActiveSession} (ha : a.Counted) {order : TokenOrder}
    {sessionId : UInt16} {before after : List Token}
    (h : a.correlator.tokensForSession order sessionId = before ++ t :: after) :
    Resolvable t (before.foldl (fun a tok => a.recordResolution tok) a) := by
  have hmem (u : Token) (hu : u ∈ before ++ t :: after) :
      a.correlator.sessionOf u = some sessionId :=
    (a.correlator.mem_tokensForSession order).mp (h ▸ hu)
  have hnodup : (before ++ t :: after).Nodup := h ▸ a.correlator.nodup_tokensForSession order
  have hnew : t ∉ before := fun ht => (List.nodup_append.mp hnodup).2.2 t ht t (by simp) rfl
  have hcounted := ActiveSession.foldl_recordResolution_induction (P := ActiveSession.Counted)
    (fun _ _ ht h => h.recordResolution ht) (List.nodup_append.mp hnodup).1
    (fun u hu => mem_of_lookup (hmem u (List.mem_append_left _ hu))) ha
  have hsession := (ActiveSession.foldl_recordResolution before a).2.2 t
  rw [if_neg hnew, hmem t (by simp)] at hsession
  exact ⟨mem_of_lookup hsession, hcounted.pos (mem_of_lookup hsession)⟩

theorem resolvable_fire {call : Call} {code : DispatchEntry H → H → Callback H} {event : Event}
    (hlive : Live core) (hcore : Balanced core) (t : Token) :
    Ends (fire env t call code event) core fun o core' =>
      ∀ flow, o = .done (some flow) → Resolvable t core'.activeSession := by
  apply ((same_fire.always core).and (mem_of_fire hlive.books)).mono
  rintro o core' ⟨hsession, hmem⟩ flow ho
  have hcounted : core'.activeSession.Counted := by
    rw [hsession]
    exact hcore.counted
  exact ⟨hmem flow ho, hcounted.pos (hmem flow ho)⟩

theorem resolvable_cancel (hfresh : Fresh t core) (hcore : Balanced core) :
    Resolvable t (cancel t core).2.activeSession := by
  have hmem := mem_of_pending hfresh.live.books (.inl hfresh.pending)
  rw [cancel_fresh hfresh]
  exact ⟨hmem, hcore.counted.pos hmem⟩

theorem unsaturated_of_live (hlive : Live core) (hcore : Balanced core) : Unsaturated env core := by
  refine ⟨fun t bytes => ?_, fun t => ?_, fun _ _ _ _ _ h => resolvable_foldl hcore.counted h, ?_⟩
  · rw [fireReply]
    exact resolvable_fire hlive hcore t
  · rw [fireFailed]
    exact resolvable_fire hlive hcore t
  · intro direct sessionId entry payload
    rw [insert_apply]
    have hfresh := fresh_inserted sessionId entry hlive
    have hinserted := upkeep_balanced.insert sessionId entry hlive trivial hcore
    apply (saved_sendRequestFrame upkeep_balanced direct sessionId payload hfresh hinserted).mono
    rintro o core' ⟨hcore', hrefused⟩ reason ho
    exact resolvable_cancel (hrefused reason ho).1 hcore'

theorem balanced_of_reached (h : Reached env core) : Balanced core := by
  induction h with
  | start hcore =>
    obtain ⟨handler, primaryConnection, k, rfl⟩ := hcore
    exact balanced_capped handler primaryConnection k
  | @step core core' op hcore _ hstep ih =>
    have hexec := (step_cores env).mp hstep
    have hstep : Ends (op.exec env) core fun _ core' => Balanced core' :=
      saved_exec upkeep_balanced saves_runDestruction op (live_of_reached hcore) ih
        fun _ _ => trivial
    unfold Ends at hstep
    rw [hexec] at hstep
    exact hstep

theorem balanced_of_serving {direct : Bool} (h : Serving env direct core) :
    Live core ∧ Balanced core := by
  induction h with
  | @enter core code hcore sessionId token inner hcode =>
    have hhanded := live_log (e := .handed sessionId (.request token inner)) rfl (by simp)
      (live_of_reached hcore)
    have hopened := stable_openPort sessionId token inner _ hhanded
    have hbalanced := balanced_of_reached hcore
    exact ⟨live_log rfl (by simp) hopened, hbalanced.counted, hbalanced.drained⟩
  | @handler core _ handler ih => exact admits_handler upkeep_balanced core handler ih
  | @effect core core' _ call effect answer hperform ih =>
    have hadmits : Ends (performCtx env direct call effect) core _ :=
      admits_performCtx upkeep_balanced direct call effect core
    unfold Ends at hadmits
    rw [hperform] at hadmits
    exact hadmits ih

/-- Whatever a looper is given to do, its entries and its correlator agree between any
two things it does and at the end, also when a request handler is interrupted. Where
`record_resolution` is called the counter never saturates. -/
theorem correlator_agrees (hframes : env.pc.FrameRoundTrip) (handler : H)
    (primaryConnection : PeerScope) (k : UInt16) (acts : List Act) :
    let start := capped handler primaryConnection k
    let final := (execAll env acts start).2
    (∀ v ∈ visited env acts start, Agrees v.2 ∧ Unsaturated env v.2) ∧
      (∀ direct core, Serving env direct core → Agrees core ∧ Unsaturated env core) ∧
      (CalmCascades env final → Agrees final) := by
  intro start final
  let I (core : LooperCore H) := Live core ∧ Balanced core
  have hstep (act : Act) (core : LooperCore H) (hcore : I core) (_ : True) :
      Ends (act.exec env) core (Leaves id I (fun reason core => Over reason core ∧ Balanced core)
        fun core => Escaped env core ∧ Balanced core) := by
    apply ((leaves_act env (rules_live env hframes) act hcore.1).and
      (balanced_act act hcore.1 hcore.2)).mono
    rintro o core' ⟨ho, hbalanced⟩
    cases o with
    | panicked => exact ⟨ho, hbalanced⟩
    | done exit =>
      cases exit with
      | none => exact ⟨ho, hbalanced⟩
      | some reason => exact ⟨ho, hbalanced⟩
  have hstart : I start := ⟨live_capped handler primaryConnection k,
    balanced_capped handler primaryConnection k⟩
  refine ⟨fun v hv => ?_, fun direct core hserving => ?_, fun hcalm => ?_⟩
  · obtain hall | ⟨v, -, -, hbad⟩ := visited_or env hstep acts hstart
    · obtain ⟨hlive, hbalanced⟩ := (hall v hv).1
      exact ⟨agrees_of_live hlive hbalanced, unsaturated_of_live hlive hbalanced⟩
    · exact absurd trivial hbad
  · obtain ⟨hlive, hbalanced⟩ := balanced_of_serving hserving
    exact ⟨agrees_of_live hlive hbalanced, unsaturated_of_live hlive hbalanced⟩
  · have hleaves := leaves_execAll env hstep acts hstart fun _ _ => trivial
    unfold Ends at hleaves
    cases ho : (execAll env acts start).1 with
    | panicked =>
      rw [ho] at hleaves
      obtain ⟨⟨⟨x, hx, hnot⟩, -⟩ | ⟨⟨reason, hover⟩, -⟩, hbalanced⟩ := hleaves
      · exact absurd (hcalm x hx) hnot
      · exact agrees_of_over hover hbalanced
    | done exit =>
      rw [ho] at hleaves
      cases exit with
      | none => exact agrees_of_live hleaves.1 hleaves.2
      | some reason => exact agrees_of_over hleaves.1 hleaves.2

section Samples

def mixed : Env Unit :=
  { Env.idle postcard with
    trySend := fun n => if n = 5 then .error .channelFull else .ok ()
    serviceDispatch := ⟨∅, AList.insert 5 ⟨1, fun _ => some fun _ h =>
      .act h (.insertAsync 6 false) fun _ =>
        .act h (.trySendRequest ⟨1, 9⟩ (some []) SyncRequest.entry) fun _ => .ret h .cont⟩ ∅⟩ }

def errands : List Act :=
  [.op (.service false 5 (.request 0 [1])), .op (.syncRequest ⟨7, [7]⟩),
    .op (.service false 5 (.reply 40 [])),
    .op (.handle (.control (.serviceTeardown 6 .connectionLost))), .close]

def calmCheck : DispatchEntry Unit ⊕ AsyncDispatchEntry → Bool
  | .inl entry =>
    match entry.onFailed () with
    | .ret _ _ => true
    | _ => false
  | .inr entry => !entry.futureDropped

theorem calm_of_check {env : Env Unit} {x : DispatchEntry Unit ⊕ AsyncDispatchEntry}
    (h : calmCheck x) : Calm env x := by
  cases x with
  | inr entry => simpa [calmCheck, Calm] using h
  | inl entry =>
    intro t core
    cases hscript : entry.onFailed () with
    | ret handler flow =>
      have hinvoke : Ends (invoke env (.onFailed t) entry.onFailed) core
          fun o _ => o ≠ .panicked := by
        apply ends_enter
        rw [show entry.onFailed core.handler = .ret handler flow from hscript]
        exact fun hpanic => by cases hpanic
      exact hinvoke
    | panic handler => simp [calmCheck, hscript] at h
    | act handler effect next => simp [calmCheck, hscript] at h

theorem correlator_agrees_errands :
    let start := capped () ⟨1⟩ 0
    let final := (execAll mixed errands start).2
    (visited mixed errands start).map (fun v => outstandingRequests v.2) = [0, 1, 2, 2, 1] ∧
      .cancelled 1 ∈ final.trace ∧ .rejected 0 ∈ final.trace ∧ Agrees final := by
  intro start final
  have hchecked : final.cascaded.all calmCheck := by decide +kernel
  have hcalm : CalmCascades mixed final := fun x hx =>
    calm_of_check (List.all_eq_true.mp hchecked x hx)
  exact ⟨by decide +kernel, by decide +kernel, by decide +kernel,
    (correlator_agrees postcard_frame () ⟨1⟩ 0 errands).2.2 hcalm⟩

end Samples

end Pane.TokenTables
