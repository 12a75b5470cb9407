import Pane.BatchOrder

namespace Pane.PlainLoop

open Pane.HashTable Pane.Messages Pane.Callbacks Pane.Unwinding Pane.LooperState
open Pane.CoreDispatch Pane.CoreRequest Pane.Looper Pane.CoreRuns Pane.LooperPlan Pane.BatchOrder
open Pane.PostcardFormat

variable {H : Type} {env : Env H} {pc : Postcard}

def messageOf : Input → Option LooperMessage
  | .message msg => some msg
  | .pulse => some (.control (.lifecycle .pulse))
  | .sync _ | .closed => none

/-- What both loops do the same for. `Looper::run` does more about the sessions of a
provider and about revocations, and alone takes over a connection. -/
def isPlain : Input → Bool
  | .message (.control (.serviceTeardown ..)) | .message (.control (.interestAccepted ..)) => false
  | .message (.localRevoke _) | .message (.newConnection _) | .sync _ => false
  | _ => true

def kinds : List Bucket := [.replies, .failed, .paneExited, .lifecycle, .requests, .notifications]

variable (pc) in
def ofKind (k : Bucket) (msgs : List LooperMessage) : List LooperMessage :=
  msgs.filter fun msg => bucketOf pc (.message msg) = some k

def arrived (ticks : List Tick) : List LooperMessage :=
  ticks.flatMap fun t => t.inputs.filterMap messageOf

def bucketActs (b : Batch) : Bucket → List Act
  | .replies => b.replies.map fun r => .op (.service false r.1 (.reply r.2.1 r.2.2))
  | .failed => b.failed.map fun r => .op (.service false r.1 (.failed r.2))
  | .paneExited => b.paneExited.map fun p => .op (.handle (.control (.paneExited p.1 p.2)))
  | .lifecycle => b.lifecycle.map fun msg => .op (.handle (.control (.lifecycle msg)))
  | .requests => b.requests.map (requestAct false)
  | .notifications => b.notifications.map notificationAct
  | _ => []

variable (pc) in
def actOf (msg : LooperMessage) : Option Act :=
  match update pc (.message msg) with
  | some (.reply r) => some (.op (.service false r.1 (.reply r.2.1 r.2.2)))
  | some (.failed r) => some (.op (.service false r.1 (.failed r.2)))
  | some (.paneExited p) => some (.op (.handle (.control (.paneExited p.1 p.2))))
  | some (.lifecycle msg) => some (.op (.handle (.control (.lifecycle msg))))
  | some (.request r) => some (requestAct false r)
  | some (.notification n) => some (notificationAct n)
  | _ => none

section Acts

theorem exec_handle {msg : LooperMessage} {k : Bucket} (hk : k ∈ kinds)
    (h : bucketOf env.pc (.message msg) = some k) :
    ∃ act, actOf env.pc msg = some act ∧ Act.exec env (.op (.handle msg)) = act.exec env := by
  cases msg with
  | control msg =>
    cases msg <;> first | exact ⟨_, rfl, rfl⟩ | (cases h <;> simp [kinds, Update.bucket] at hk)
  | localRevoke sessionId =>
    cases h
    simp [kinds, Update.bucket] at hk
  | newConnection registers =>
    cases h
    simp [kinds, Update.bucket] at hk
  | service sessionId payload =>
    rw [exec_handle_service, actOf, update]
    rw [bucketOf, update] at h
    cases hframe : env.pc.frameFromBytes payload with
    | none =>
      rw [hframe] at h
      cases h
    | some frame => cases frame <;> exact ⟨_, rfl, rfl⟩

variable (pc) in
def Sorted (order : List LooperMessage) : Prop :=
  ∀ msg ∈ order, ∃ k ∈ kinds, bucketOf pc (.message msg) = some k

theorem execAll_handle {order : List LooperMessage} (h : Sorted env.pc order) (acts : List Act) :
    execAll env (order.map (fun msg => .op (.handle msg)) ++ acts) =
      execAll env (order.filterMap (actOf env.pc) ++ acts) := by
  induction order with
  | nil => rfl
  | cons msg order ih =>
    obtain ⟨⟨k, hk, hkind⟩, hrest⟩ := List.forall_mem_cons.mp h
    obtain ⟨act, hact, hexec⟩ := exec_handle hk hkind
    rw [List.map_cons, List.filterMap_cons_some hact, List.cons_append, List.cons_append, execAll,
      execAll, Code.firstOf_cons, Code.firstOf_cons, ← execAll, ← execAll, ih hrest, hexec]

theorem execAll_close (acts more : List Act) :
    execAll env (acts ++ [.close] ++ more) = execAll env (acts ++ [.close]) := by
  rw [execAll_append, execAll_append, Code.orNext_assoc]
  congr 1
  rw [execAll, Code.firstOf_singleton]
  funext core
  rw [Code.orNext, Act.exec, Code.bind_apply]
  cases channelClosed env core with
  | mk o core' =>
    cases o with
    | panicked => rfl
    | done reason => rfl

end Acts

section Batches

variable {b : Batch} {k : Bucket}

theorem ofKind_append (msgs msgs' : List LooperMessage) :
    ofKind pc k (msgs ++ msgs') = ofKind pc k msgs ++ ofKind pc k msgs' := List.filter_append ..

theorem bucketActs_revoke (b : Batch) (s : UInt16) (k : Bucket) :
    bucketActs (b.collectRevoke pc s) k = bucketActs b k := by
  rw [Batch.collectRevoke]
  split <;> cases k <;> rfl

theorem bucketActs_message (b : Batch) (k : Bucket) (msg : LooperMessage) :
    bucketActs (collectInput pc b (.message msg)) k =
      bucketActs b k ++ (ofKind pc k [msg]).filterMap (actOf pc) := by
  rw [collectInput_eq, ofKind]
  cases hu : update pc (.message msg) with
  | none => simp [bucketOf, hu]
  | some u =>
    have hbucket : bucketOf pc (.message msg) = some u.bucket := by
      rw [bucketOf, hu]
      rfl
    by_cases hk : u.bucket = k
    · subst hk
      rw [List.filter_cons_of_pos (by simp [hbucket]), List.filter_nil, List.filterMap_cons, actOf, hu]
      cases u with
      | revocation s => exact (bucketActs_revoke b s _).trans (List.append_nil _).symm
      | _ => first | exact List.map_append | exact (List.append_nil _).symm
    · rw [List.filter_cons_of_neg (by simp [hbucket, hk]), List.filter_nil, List.filterMap_nil,
        List.append_nil]
      cases u with
      | revocation s => exact bucketActs_revoke b s k
      | _ => cases k <;> first | rfl | exact absurd rfl hk

theorem bucketActs_inputs (inputs : List Input) (b : Batch) :
    bucketActs (inputs.foldl (collectInput pc) b) k =
      bucketActs b k ++ (ofKind pc k (inputs.filterMap messageOf)).filterMap (actOf pc) := by
  induction inputs generalizing b with
  | nil => exact (List.append_nil _).symm
  | cons input inputs ih =>
    rw [List.foldl_cons, ih]
    cases input with
    | message msg =>
      rw [bucketActs_message, List.append_assoc, ← List.filterMap_append, ← ofKind_append]
      rfl
    | pulse =>
      have hpulse : collectInput pc b .pulse =
        collectInput pc b (.message (.control (.lifecycle .pulse))) := rfl
      rw [hpulse, bucketActs_message, List.append_assoc, ← List.filterMap_append, ← ofKind_append]
      rfl
    | sync req => cases k <;> rfl
    | closed => cases k <;> rfl

/-- A batch of plain messages. -/
structure Clean (b : Batch) : Prop where
  syncRequests : b.syncRequests = []
  teardowns : b.teardowns = []
  subscriberConnected : b.subscriberConnected = []
  revokedSessions : b.revokedSessions = ∅
  ctlWrites : b.ctlWrites = []
  newConnection : b.newConnection = none

theorem clean_inputs {inputs : List Input} (hplain : ∀ i ∈ inputs, isPlain i = true)
    (h : Clean b) : Clean (inputs.foldl (collectInput pc) b) := by
  induction inputs generalizing b with
  | nil => exact h
  | cons input inputs ih =>
    rw [List.forall_mem_cons] at hplain
    refine ih hplain.2 ?_
    cases input with
    | sync req => cases hplain.1
    | pulse => exact { h with }
    | closed => exact { h with }
    | message msg =>
      cases msg with
      | control msg => cases msg <;> first | exact { h with } | cases hplain.1
      | localRevoke sessionId => cases hplain.1
      | newConnection registers => cases hplain.1
      | service sessionId payload =>
        rw [collectInput, Batch.collect]
        split
        · exact h
        · next frame hframe => cases frame <;> exact { h with }

theorem portion_append {α : Type} (elapsed : Nat → Bool) (session : α → UInt16) (dispatched : Nat)
    (as : List α) : (portion ∅ elapsed session dispatched as).1 ++
      (portion ∅ elapsed session dispatched as).2.2 = as := by
  induction as generalizing dispatched with
  | nil => rfl
  | cons a as ih =>
    rw [portion, if_neg (AList.notMem_empty _)]
    split
    · rfl
    · exact congrArg (a :: ·) (ih (dispatched + 1))

theorem inboundPlan_plain (elapsed : Nat → Bool) (h : Clean b) :
    ∃ served waiting notified unread closing,
      b.requests = served ++ waiting ∧ b.notifications = notified ++ unread ∧
      (closing = [] ∨ closing = [.close]) ∧
      inboundPlan elapsed ⟨b, false⟩ =
        (served.map (requestAct false) ++ (notified.map notificationAct ++ closing),
          ⟨b.remaining waiting unread, false⟩) := by
  have hrequests := portion_append elapsed (fun r : UInt16 × Token × Bytes => r.1) 0 b.requests
  rw [inboundPlan]
  simp only [h.revokedSessions]
  generalize portion ∅ elapsed (fun r : UInt16 × Token × Bytes => r.1) 0 b.requests = p
    at hrequests ⊢
  have hnotifications := portion_append elapsed (fun n : UInt16 × Bytes => n.1) p.2.1 b.notifications
  split
  · exact ⟨p.1, p.2.2, [], b.notifications, [], hrequests.symm, rfl, .inl rfl, by simp⟩
  · next hserved =>
    rw [not_not.mp hserved] at hrequests
    generalize portion ∅ elapsed (fun n : UInt16 × Bytes => n.1) p.2.1 b.notifications = q
      at hnotifications ⊢
    split
    · exact ⟨p.1, [], q.1, q.2.2, [], hrequests.symm, hnotifications.symm, .inl rfl, by simp⟩
    · next hnotified =>
      rw [not_not.mp hnotified] at hnotifications
      refine ⟨p.1, [], q.1, [], _, hrequests.symm, hnotifications.symm, ?_, rfl⟩
      split
      · exact .inr rfl
      · exact .inl rfl

theorem tickPlan_eq {t : Tick} (hpolled : t.pollFails = false) {state : LoopState}
    (hshared : state.sharedWriter = false)
    (h : Clean (t.inputs.foldl (collectInput pc) state.batch)) :
    tickPlan pc state t =
      batchPlan t.elapsed ⟨t.inputs.foldl (collectInput pc) state.batch, false⟩ := by
  rw [tickPlan, if_neg (by simp [hpolled]), hshared]
  generalize t.inputs.foldl (collectInput pc) state.batch = b at h
  dsimp only
  split
  · next hempty =>
    obtain ⟨hsyncs, hteardowns, hconnected, hrevoked, hwrites, hnew⟩ := h
    cases b
    dsimp only at hsyncs hteardowns hconnected hrevoked hwrites hnew
    subst hsyncs hteardowns hconnected hrevoked hwrites hnew
    simp only [Batch.isEmpty, List.isEmpty_nil, Option.isNone_none, Bool.true_and, Bool.and_true,
      Bool.and_eq_true, List.isEmpty_iff, Bool.not_eq_true'] at hempty
    obtain ⟨⟨⟨⟨⟨⟨rfl, rfl⟩, rfl⟩, rfl⟩, rfl⟩, rfl⟩, rfl⟩ := hempty
    rfl
  · rfl

end Batches

section Order

variable {held chunk : Bucket → List LooperMessage} {state : LoopState} {k : Bucket}

theorem batchPlan_plain (elapsed : Nat → Bool) {b : Batch} (h : Clean b) :
    batchPlan elapsed ⟨b, false⟩ =
      (bucketActs b .replies ++ (bucketActs b .failed ++ (bucketActs b .paneExited ++
        (bucketActs b .lifecycle ++ (inboundPlan elapsed ⟨b, false⟩).1))),
        (inboundPlan elapsed ⟨b, false⟩).2) := by
  simp [batchPlan, frameworkPlan, bucketActs, h.syncRequests, h.teardowns, h.subscriberConnected,
    h.ctlWrites, h.newConnection]

variable (pc) in
structure Holds (held : Bucket → List LooperMessage) (state : LoopState) : Prop where
  clean : Clean state.batch
  shared : state.sharedWriter = false
  acts : ∀ k, bucketActs state.batch k = (held k).filterMap (actOf pc)
  kind : ∀ {k msg}, msg ∈ held k → bucketOf pc (.message msg) = some k
  early : ∀ k, k ≠ .requests → k ≠ .notifications → held k = []

theorem Holds.pending (h : Holds pc held state) {msgs : List LooperMessage} {msg : LooperMessage}
    (hmsg : msg ∈ held k ++ ofKind pc k msgs) : bucketOf pc (.message msg) = some k := by
  obtain hmsg | hmsg := List.mem_append.mp hmsg
  · exact h.kind hmsg
  · simpa using (List.mem_filter.mp hmsg).2

theorem tick_order (h : Holds pc held state) {t : Tick} (hpolled : t.pollFails = false)
    (hplain : ∀ i ∈ t.inputs, isPlain i = true) :
    ∃ chunk held' closing,
      (∀ k, held k ++ ofKind pc k (t.inputs.filterMap messageOf) = chunk k ++ held' k) ∧
      (closing = [] ∨ closing = [.close]) ∧
      (tickPlan pc state t).1 = (kinds.flatMap chunk).filterMap (actOf pc) ++ closing ∧
      Holds pc held' (tickPlan pc state t).2 := by
  have hclean : Clean (t.inputs.foldl (collectInput pc) state.batch) := clean_inputs hplain h.clean
  have hacts : ∀ k, bucketActs (t.inputs.foldl (collectInput pc) state.batch) k =
      (held k ++ ofKind pc k (t.inputs.filterMap messageOf)).filterMap (actOf pc) := by
    intro k
    rw [bucketActs_inputs, h.acts, List.filterMap_append]
  rw [tickPlan_eq hpolled h.shared hclean, batchPlan_plain t.elapsed hclean]
  obtain ⟨served, waiting, notified, unread, closing, hrequests, hnotifications, hclosing, hinbound⟩ :=
    inboundPlan_plain t.elapsed hclean
  -- the messages behind the frames that are served, and behind those that wait
  have hrequest := hacts .requests
  rw [bucketActs, hrequests, List.map_append] at hrequest
  obtain ⟨requests, requests', hsplit, hserved, hwaiting⟩ :=
    List.filterMap_eq_append_iff.mp hrequest.symm
  have hnotification := hacts .notifications
  rw [bucketActs, hnotifications, List.map_append] at hnotification
  obtain ⟨notes, notes', hsplit', hnotified, hunread⟩ :=
    List.filterMap_eq_append_iff.mp hnotification.symm
  rw [hinbound]
  refine ⟨fun k => if k = .requests then requests else if k = .notifications then notes
      else held k ++ ofKind pc k (t.inputs.filterMap messageOf),
    fun k => if k = .requests then requests' else if k = .notifications then notes' else [],
    closing, ?_, hclosing, ?_, ⟨?_, rfl, ?_, ?_, ?_⟩⟩
  · intro k
    by_cases hk : k = .requests
    · simp only [hk, if_true, hsplit]
    by_cases hk' : k = .notifications
    · simp only [hk', reduceCtorEq, if_true, if_false, hsplit']
    simp only [hk, hk', if_false, List.append_nil]
  · simp [kinds, hacts, hserved, hnotified]
  · exact ⟨rfl, rfl, rfl, hclean.revokedSessions, rfl, rfl⟩
  · intro k
    cases k with
    | requests => exact hwaiting.symm
    | notifications => exact hunread.symm
    | _ => rfl
  · intro k msg hmsg
    refine h.pending (?_ : msg ∈ held k ++ ofKind pc k (t.inputs.filterMap messageOf))
    by_cases hk : k = .requests
    · subst hk
      rw [hsplit]
      exact List.mem_append_right _ hmsg
    by_cases hk' : k = .notifications
    · subst hk'
      rw [hsplit']
      exact List.mem_append_right _ hmsg
    simp [hk, hk'] at hmsg
  · intro k hk hk'
    simp only [hk, hk', if_false]

theorem ofKind_sorted (hchunk : ∀ {k msg}, msg ∈ chunk k → bucketOf pc (.message msg) = some k)
    (hk : k ∈ kinds) : ofKind pc k (kinds.flatMap chunk) = chunk k := by
  have hself : ofKind pc k (chunk k) = chunk k :=
    List.filter_eq_self.mpr fun msg hmsg => by simp [hchunk hmsg]
  have hother : ∀ j, j ≠ k → ofKind pc k (chunk j) = [] := fun j hj =>
    List.filter_eq_nil_iff.mpr fun msg hmsg => by simp [hchunk hmsg, hj]
  simp only [kinds, List.mem_cons, List.not_mem_nil, or_false] at hk
  obtain rfl | rfl | rfl | rfl | rfl | rfl := hk <;> simp [kinds, ofKind_append, hself, hother]

theorem run_order (h : Holds env.pc held state) {ticks : List Tick}
    (hplain : ∀ t ∈ ticks, t.pollFails = false ∧ ∀ i ∈ t.inputs, isPlain i = true) :
    ∃ order closing, (closing = [] ∨ closing = [.close]) ∧
      execAll env (runPlan env.pc state ticks) =
        execAll env (order.filterMap (actOf env.pc) ++ closing) ∧
      Sorted env.pc order ∧
      (∀ k ∈ kinds, ofKind env.pc k order <+: held k ++ ofKind env.pc k (arrived ticks)) ∧
      (closing = [] → ∀ k ∈ kinds, k ≠ .requests → k ≠ .notifications →
        ofKind env.pc k order = held k ++ ofKind env.pc k (arrived ticks)) := by
  induction ticks generalizing held state with
  | nil =>
    refine ⟨[], [], .inl rfl, rfl, List.forall_mem_nil _, fun k _ => List.nil_prefix, ?_⟩
    intro _ k _ hk hk'
    rw [h.early k hk hk']
    rfl
  | cons t ticks ih =>
    obtain ⟨⟨hpolled, hinputs⟩, hticks⟩ := List.forall_mem_cons.mp hplain
    obtain ⟨chunk, held', closing, hsplit, hclosing, hplan, hheld'⟩ := tick_order h hpolled hinputs
    have hchunk : ∀ {k msg}, msg ∈ chunk k → bucketOf env.pc (.message msg) = some k := by
      intro k msg hmsg
      refine h.pending (?_ : msg ∈ held k ++ ofKind env.pc k (t.inputs.filterMap messageOf))
      rw [hsplit]
      exact List.mem_append_left _ hmsg
    have hsorted : Sorted env.pc (kinds.flatMap chunk) := by
      intro msg hmsg
      obtain ⟨k, hk, hmsg⟩ := List.mem_flatMap.mp hmsg
      exact ⟨k, hk, hchunk hmsg⟩
    have harrived : ∀ k, held k ++ ofKind env.pc k (arrived (t :: ticks)) =
        chunk k ++ (held' k ++ ofKind env.pc k (arrived ticks)) := by
      intro k
      rw [arrived, List.flatMap_cons, ofKind_append, ← List.append_assoc, hsplit, List.append_assoc]
      rfl
    obtain rfl | rfl := hclosing
    · obtain ⟨order, closing, hclosing, hexec, hsorted', hfront, hall⟩ := ih hheld' hticks
      refine ⟨kinds.flatMap chunk ++ order, closing, hclosing, ?_, ?_, fun k hk => ?_, ?_⟩
      · rw [runPlan, hplan, List.append_nil, execAll_append, hexec, ← execAll_append,
          List.filterMap_append, List.append_assoc]
      · exact List.forall_mem_append.mpr ⟨hsorted, hsorted'⟩
      · rw [ofKind_append, ofKind_sorted hchunk hk, harrived]
        exact (List.prefix_append_right_inj _).mpr (hfront k hk)
      · intro hopen k hk hrequests hnotifications
        rw [ofKind_append, ofKind_sorted hchunk hk, harrived,
          hall hopen k hk hrequests hnotifications]
    · refine ⟨kinds.flatMap chunk, [.close], .inr rfl, ?_, hsorted, fun k hk => ?_, ?_⟩
      · rw [runPlan, hplan, execAll_close]
      · rw [ofKind_sorted hchunk hk, harrived]
        exact List.prefix_append _ _
      · intro hopen
        cases hopen

end Order

/-- How a run of `Looper::run` compares to `LooperCore::run` on `order`: while the one
still runs, the other goes on from the same state, and they end in the same way. -/
def Agrees (env : Env H) (order arrived : List LooperMessage) (core : LooperCore H) :
    Outcome (Option ExitReason) × LooperCore H → Prop
  | (.done none, core') => (∀ k ∈ kinds, k ≠ .requests → k ≠ .notifications →
      ofKind env.pc k order = ofKind env.pc k arrived) ∧
    ∀ more, CoreRequest.run env (order ++ more) core = CoreRequest.run env more core'
  | (.done (some reason), core') => CoreRequest.run env order core = (.done reason, core')
  | (.panicked, core') => CoreRequest.run env order core = (.panicked, core')

theorem some_injective {m n : Loop H ExitReason} {core core' : LooperCore H}
    (h : (do let reason ← m; return some reason : Loop H (Option ExitReason)) core =
      (do let reason ← n; return some reason : Loop H (Option ExitReason)) core') :
    m core = n core' := by
  rw [Code.bind_apply, Code.bind_apply] at h
  cases hm : m core with
  | mk o c =>
    cases hn : n core' with
    | mk o' c' =>
      rw [hm, hn] at h
      cases o <;> cases o' <;> cases h <;> rfl

/-- The batches of `Looper::run` only rearrange: however the messages are split into
ticks, whatever the limits of phase 5 are and whatever the handler does, a run is one
of `LooperCore::run`, one message after the other, in an order that keeps the messages
of each kind in the order of their arrival. -/
theorem looper_refines_core (env : Env H) (ticks : List Tick)
    (hplain : ∀ t ∈ ticks, t.pollFails = false ∧ ∀ i ∈ t.inputs, isPlain i = true) :
    ∃ order, Sorted env.pc order ∧
      (∀ k ∈ kinds, ofKind env.pc k order <+: ofKind env.pc k (arrived ticks)) ∧
      ∀ core, Agrees env order (arrived ticks) core (Looper.run env false ticks core) := by
  have hstart : Holds env.pc (fun _ => []) ⟨Batch.new, false⟩ :=
    ⟨⟨rfl, rfl, rfl, rfl, rfl, rfl⟩, rfl, fun k => by cases k <;> rfl, fun h => (by cases h),
      fun _ _ _ => rfl⟩
  obtain ⟨order, closing, hclosing, hexec, hsorted, hfront, hall⟩ := run_order hstart hplain
  refine ⟨order, hsorted, hfront, fun core => ?_⟩
  have hrun : Looper.run env false ticks =
      execAll env (order.map (fun msg => .op (.handle msg)) ++ closing) := by
    rw [execAll_handle hsorted, ← hexec, run_plan]
    rfl
  obtain rfl | rfl := hclosing
  · have hcore : ∀ more, (do let reason ← CoreRequest.run env (order ++ more); return some reason) =
        Code.orNext (Looper.run env false ticks)
          (do let reason ← CoreRequest.run env more; return some reason) := by
      intro more
      rw [coreRun_plan, coreRun_plan, List.map_append, List.append_assoc, execAll_append, hrun,
        List.append_nil]
    have hcore' := hcore []
    rw [List.append_nil] at hcore'
    cases hresult : Looper.run env false ticks core with
    | mk o core' =>
      cases o with
      | panicked =>
        refine some_injective (n := Code.unwind) ?_
        rw [hcore', Code.orNext, hresult]
        rfl
      | done exit =>
        cases exit with
        | none =>
          refine ⟨hall rfl, fun more => some_injective ?_⟩
          rw [hcore, Code.orNext, hresult]
        | some reason =>
          refine some_injective (n := pure reason) ?_
          rw [hcore', Code.orNext, hresult]
          rfl
  · rw [hrun, ← coreRun_plan, Code.bind_apply]
    cases hresult : CoreRequest.run env order core with
    | mk o core' =>
      cases o with
      | panicked => exact hresult
      | done reason => exact hresult

theorem looper_refines_core_pulse :
    let ticks : List Tick :=
      [⟨[.message (.service 5 [3, 1, 7]), .message (.control (.lifecycle .ready))], false,
        fun _ => false⟩, ⟨[.pulse, .closed], false, fun _ => false⟩]
    ∃ order, Sorted postcard order ∧
      (∀ k ∈ kinds, ofKind postcard k order <+: ofKind postcard k (arrived ticks)) ∧
      ∀ core, Agrees (Env.idle postcard) order (arrived ticks) core
        (Looper.run (Env.idle postcard) false ticks core) :=
  looper_refines_core (Env.idle postcard) _ (by simp [isPlain])

end Pane.PlainLoop
