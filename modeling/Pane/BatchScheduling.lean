import Pane.ArrivalOrder

namespace Pane.BatchScheduling

open Pane.HashTable Pane.Messages Pane.Callbacks Pane.Unwinding Pane.LooperState
open Pane.CoreDispatch Pane.CoreRequest Pane.Looper Pane.CoreRuns Pane.VisibleEvents Pane.BatchPhases
open Pane.PostcardFormat

variable {H : Type} (env : Env H) {core core' : LooperCore H}

section Sifted

variable {α : Type} {skipped skipped' : α → Prop} {as bs cs ds : List α}

/-- The second list is the first one without some elements that may be skipped. -/
inductive Sifted (skipped : α → Prop) : List α → List α → Prop
  | nil : Sifted skipped [] []
  | keep (a : α) {as bs : List α} (h : Sifted skipped as bs) : Sifted skipped (a :: as) (a :: bs)
  | skip {a : α} {as bs : List α} (ha : skipped a) (h : Sifted skipped as bs) :
      Sifted skipped (a :: as) bs

theorem Sifted.append (h : Sifted skipped as bs) (h' : Sifted skipped cs ds) :
    Sifted skipped (as ++ cs) (bs ++ ds) := by
  induction h with
  | nil => exact h'
  | keep a _ ih => exact .keep a ih
  | skip ha _ ih => exact .skip ha ih

theorem Sifted.mono (h : Sifted skipped as bs) (hskipped : ∀ a, skipped a → skipped' a) :
    Sifted skipped' as bs := by
  induction h with
  | nil => exact .nil
  | keep a _ ih => exact .keep a ih
  | skip ha _ ih => exact .skip (hskipped _ ha) ih

theorem sifted_filter (p : α → Bool) (as : List α) :
    Sifted (fun a => p a = false) as (as.filter p) := by
  induction as with
  | nil => exact .nil
  | cons a as ih =>
    cases hp : p a with
    | true =>
      rw [List.filter_cons_of_pos hp]
      exact .keep a ih
    | false =>
      rw [List.filter_cons_of_neg (by simp [hp])]
      exact .skip hp ih

end Sifted

/-- The ticks of the main loop, with the state in which it goes on. -/
def runTicks : LoopState → List Tick → Loop H (Except ExitReason LoopState)
  | state, [] => return .ok state
  | state, tick :: ticks => do
    match ← tickStep env state tick with
    | .error reason => return .error reason
    | .ok state => runTicks state ticks

theorem mainLoop_eq (state : LoopState) (ticks : List Tick) :
    mainLoop env state ticks = do
      match ← runTicks env state ticks with
      | .error reason => return some reason
      | .ok _ => return none := by
  induction ticks generalizing state with
  | nil => rfl
  | cons tick ticks ih =>
    funext core
    simp only [mainLoop, runTicks, Code.bind_apply]
    cases tickStep env state tick core with
    | mk o core₁ =>
      cases o with
      | panicked => rfl
      | done result =>
        cases result with
        | error reason => rfl
        | ok state' => exact congrFun (ih state') core₁

def requestsIn (pc : Postcard) (ticks : List Tick) : List (UInt16 × Token × Bytes) :=
  (ticks.flatMap Tick.inputs).filterMap (requestOf pc)

def notificationsIn (pc : Postcard) (ticks : List Tick) : List (UInt16 × Bytes) :=
  (ticks.flatMap Tick.inputs).filterMap (notificationOf pc)

def requestIn : Event → Option (UInt16 × Token × Bytes)
  | .handed sessionId (.request token inner) => some (sessionId, token, inner)
  | _ => none

def notificationIn : Event → Option (UInt16 × Bytes)
  | .handed sessionId (.notification inner) => some (sessionId, inner)
  | _ => none

def Revoked (ticks : List Tick) (sessionId : UInt16) : Prop :=
  .message (.localRevoke sessionId) ∈ ticks.flatMap Tick.inputs

/-- Of the messages that arrived, `left` are not yet dispatched. All before them
were dispatched, each once and in order, but for revoked sessions. -/
def Scheduled {α : Type} (revoked : UInt16 → Prop) (session : α → UInt16)
    (arrived dispatched left : List α) : Prop :=
  ∃ taken, arrived = taken ++ left ∧ Sifted (fun a => revoked (session a)) taken dispatched

section Step

variable {α : Type} {revoked revoked' : UInt16 → Prop} {session : α → UInt16}
  {arrived dispatched left : List α}

theorem Scheduled.step (h : Scheduled revoked session arrived dispatched left)
    (hrevoked : ∀ s, revoked s → revoked' s) {more served rest : List α} {set : HashSet UInt16}
    (hset : ∀ s, s ∈ set → revoked' s) (hserved : left ++ more = served ++ rest) :
    Scheduled revoked' session (arrived ++ more)
      (dispatched ++ served.filter fun a => decide (session a ∉ set)) rest := by
  obtain ⟨taken, rfl, hsifted⟩ := h
  refine ⟨taken ++ served, by rw [List.append_assoc, hserved, List.append_assoc], ?_⟩
  refine (hsifted.mono fun a => hrevoked _).append ((sifted_filter _ served).mono ?_)
  intro a ha
  exact hset _ (by simpa using ha)

end Step

structure Tracked (pc : Postcard) (past : List Tick) (requests : List (UInt16 × Token × Bytes))
    (notifications : List (UInt16 × Bytes)) (trace : List Event) : Prop where
  requests : Scheduled (Revoked past) Prod.fst (requestsIn pc past) (trace.filterMap requestIn)
    requests
  notifications : Scheduled (Revoked past) Prod.fst (notificationsIn pc past)
    (trace.filterMap notificationIn) notifications

theorem filterMap_of_ran {α : Type} {f : Event → Option α} (hf : ∀ e, isVisible e = false → f e = none)
    (hreport : ∀ e, isReport e → f e = none) (hlost : f (.called .disconnected) = none)
    {b rest : Batch} {rs : List (UInt16 × Token × Bytes)} {ns : List (UInt16 × Bytes)}
    {o : Outcome (Except ExitReason LoopState)} (h : Ran b rest rs ns o core core') :
    core'.trace.filterMap f =
      core.trace.filterMap f ++ (handedOver b.revokedSessions rs ns).filterMap f := by
  obtain ⟨-, seen, last, hconcluded, hadds, hseen, -⟩ := h
  have hnone : seen.filterMap f = [] :=
    List.filterMap_eq_nil_iff.mpr fun e he => hreport e (hseen e he)
  rw [hadds.filterMap hf, List.filterMap_append, List.filterMap_append, hnone,
    hconcluded.filterMap_last hlost, List.nil_append, List.append_nil]

theorem requestIn_of_hidden {e : Event} (h : isVisible e = false) : requestIn e = none := by
  cases e <;> simp_all [isVisible, requestIn]

theorem requestIn_of_report {e : Event} (h : isReport e) : requestIn e = none := by
  cases e <;> simp_all [isReport, requestIn]

theorem notificationIn_of_hidden {e : Event} (h : isVisible e = false) : notificationIn e = none := by
  cases e <;> simp_all [isVisible, notificationIn]

theorem notificationIn_of_report {e : Event} (h : isReport e) : notificationIn e = none := by
  cases e <;> simp_all [isReport, notificationIn]

theorem requestIn_handedOver (revoked : HashSet UInt16) (rs : List (UInt16 × Token × Bytes))
    (ns : List (UInt16 × Bytes)) :
    (handedOver revoked rs ns).filterMap requestIn = rs.filter fun r => decide (r.1 ∉ revoked) := by
  have hrequests : requestIn ∘ handedRequest = some := rfl
  have hnotifications : requestIn ∘ handedNotification = fun _ => none := rfl
  rw [handedOver, List.filterMap_append, List.filterMap_map, List.filterMap_map, hrequests,
    hnotifications, List.filterMap_some]
  simp

theorem notificationIn_handedOver (revoked : HashSet UInt16) (rs : List (UInt16 × Token × Bytes))
    (ns : List (UInt16 × Bytes)) :
    (handedOver revoked rs ns).filterMap notificationIn =
      ns.filter fun n => decide (n.1 ∉ revoked) := by
  have hrequests : notificationIn ∘ handedRequest = fun _ => none := rfl
  have hnotifications : notificationIn ∘ handedNotification = some := rfl
  rw [handedOver, List.filterMap_append, List.filterMap_map, List.filterMap_map, hrequests,
    hnotifications, List.filterMap_some]
  simp

theorem revoked_of_mem (pc : Postcard) (inputs : List Input) {b : Batch} {s : UInt16}
    (h : s ∈ (inputs.foldl (collectInput pc) b).revokedSessions) :
    s ∈ b.revokedSessions ∨ .message (.localRevoke s) ∈ inputs := by
  by_contra hnot
  obtain ⟨hb, hinputs⟩ := not_or.mp hnot
  refine ArrivalOrder.not_mem_revokedSessions pc inputs hb (fun input hinput he => ?_) h
  exact hinputs (he ▸ hinput)

theorem requestsIn_append (pc : Postcard) (past more : List Tick) :
    requestsIn pc (past ++ more) = requestsIn pc past ++ requestsIn pc more := by
  rw [requestsIn, List.flatMap_append, List.filterMap_append, requestsIn, requestsIn]

theorem notificationsIn_append (pc : Postcard) (past more : List Tick) :
    notificationsIn pc (past ++ more) = notificationsIn pc past ++ notificationsIn pc more := by
  rw [notificationsIn, List.flatMap_append, List.filterMap_append, notificationsIn, notificationsIn]

theorem Revoked.append_left {past more : List Tick} {s : UInt16} (h : Revoked past s) :
    Revoked (past ++ more) s := by
  unfold Revoked
  rw [List.flatMap_append]
  exact List.mem_append_left _ h

theorem tracked_tick {past : List Tick} {tick : Tick} {state : LoopState}
    (h : Tracked env.pc past state.batch.requests state.batch.notifications core.trace)
    (hrevoked : ∀ s ∈ state.batch.revokedSessions, Revoked past s) {rest : Batch}
    {rs : List (UInt16 × Token × Bytes)} {ns : List (UInt16 × Bytes)}
    {o : Outcome (Except ExitReason LoopState)}
    (hran : Ran (tick.inputs.foldl (collectInput env.pc) state.batch) rest rs ns o core core') :
    Tracked env.pc (past ++ [tick]) rest.requests rest.notifications core'.trace ∧
      ∀ s ∈ rest.revokedSessions, Revoked (past ++ [tick]) s := by
  have hcollected := collected_foldl env.pc tick.inputs state.batch
  have hrequests := filterMap_of_ran (fun _ => requestIn_of_hidden) (fun _ => requestIn_of_report)
    rfl hran
  have hnotifications := filterMap_of_ran (fun _ => notificationIn_of_hidden)
    (fun _ => notificationIn_of_report) rfl hran
  have hold : ∀ s, Revoked past s → Revoked (past ++ [tick]) s := fun s => Revoked.append_left
  have hset : ∀ s ∈ (tick.inputs.foldl (collectInput env.pc) state.batch).revokedSessions,
      Revoked (past ++ [tick]) s := by
    intro s hs
    obtain hs | hs := revoked_of_mem env.pc tick.inputs hs
    · exact hold s (hrevoked s hs)
    · unfold Revoked
      rw [List.flatMap_append, List.flatMap_singleton]
      exact List.mem_append_right _ hs
  refine ⟨⟨?_, ?_⟩, ?_⟩
  · rw [requestsIn_append, hrequests, requestIn_handedOver]
    refine h.requests.step hold hset ?_
    rw [requestsIn, List.flatMap_singleton, ← hcollected.requests, hran.served.requests]
  · rw [notificationsIn_append, hnotifications, notificationIn_handedOver]
    refine h.notifications.step hold hset ?_
    rw [notificationsIn, List.flatMap_singleton, ← hcollected.notifications,
      hran.served.notifications]
  · rw [hran.served.revokedSessions]
    exact hset

theorem eq_of_append_singleton {α : Type} {as bs cs : List α} {a : α} (ha : a ∉ as)
    (h : as ++ [a] = bs ++ a :: cs) : bs = as ∧ cs = [] := by
  obtain ⟨bs', rfl, hbs⟩ | ⟨as', rfl, has⟩ := List.append_eq_append_iff.mp h
  · cases bs' with
    | nil => simpa using hbs
    | cons b bs' =>
      have hlength := congrArg List.length hbs
      simp at hlength
  · cases as' with
    | nil => simpa using has
    | cons b as' =>
      obtain ⟨rfl, -⟩ := List.cons.inj has
      simp at ha

theorem lost_of_ran {b rest : Batch} {rs : List (UInt16 × Token × Bytes)}
    {ns : List (UInt16 × Bytes)} {o : Outcome (Except ExitReason LoopState)}
    (h : Ran b rest rs ns o core core') {before after : List Event}
    (htrace : core'.trace = core.trace ++ before ++ .called .disconnected :: after) :
    b.channelClosed = true ∧ rest = b.remaining [] [] ∧ (∀ state, o ≠ .done (.ok state)) ∧
      after.filter isVisible = [] := by
  obtain ⟨-, seen, last, hconcluded, ⟨es, hes, hvisible⟩, hseen, -⟩ := h
  rw [htrace, List.append_assoc] at hes
  rw [← List.append_cancel_left hes, List.filter_append,
    List.filter_cons_of_pos (by rfl : isVisible (.called .disconnected) = true)] at hvisible
  have hnot : .called .disconnected ∉ seen ++ handedOver b.revokedSessions rs ns := by
    intro hmem
    obtain hmem | hmem := List.mem_append.mp hmem
    · cases hseen _ hmem
    · obtain hmem | hmem := List.mem_append.mp hmem
      · obtain ⟨r, -, he⟩ := List.mem_map.mp hmem
        cases he
      · obtain ⟨n, -, he⟩ := List.mem_map.mp hmem
        cases he
  obtain rfl | ⟨rfl, hclosed, hrest⟩ := hconcluded.last
  · rw [List.append_nil] at hvisible
    rw [← hvisible] at hnot
    simp at hnot
  · refine ⟨hclosed, hrest, fun state ho => ?_, (eq_of_append_singleton hnot hvisible.symm).2⟩
    cases (hconcluded.left state ho).2

section Closing

def withChannel (closed : Bool) (state : LoopState) : LoopState :=
  { state with batch.channelClosed := closed }

def thenLost : Except ExitReason LoopState → Loop H (Except ExitReason LoopState)
  | .error reason => return .error reason
  | .ok state => do
    if state.batch.isEmpty then
      let reason ← channelClosed env
      return .error reason
    else return .ok (withChannel true state)

theorem thenLost_left {state : LoopState} (h : state.batch.channelClosed = true)
    {requests : List (UInt16 × Token × Bytes)} {notifications : List (UInt16 × Bytes)}
    (hleft : requests ≠ [] ∨ notifications ≠ []) (core : LooperCore H) :
    thenLost env (.ok { state with
        batch := (withChannel false state).batch.remaining requests notifications }) core =
      (.done (.ok { state with batch := state.batch.remaining requests notifications }), core) := by
  have hnot : ((withChannel false state).batch.remaining requests notifications).isEmpty = false := by
    simp only [Batch.isEmpty, Batch.remaining, Batch.new, List.isEmpty_nil, Bool.true_and]
    obtain hleft | hleft := hleft
    · simp [hleft]
    · simp [hleft]
  have hclosed : withChannel true { state with
      batch := (withChannel false state).batch.remaining requests notifications } =
      { state with batch := state.batch.remaining requests notifications } := by
    simp [withChannel, Batch.remaining, h]
  simp only [thenLost, hnot, Bool.false_eq_true, if_false, hclosed]
  rfl

theorem inboundPhase_closed (elapsed : Nat → Bool) (state : LoopState)
    (h : state.batch.channelClosed = true) :
    inboundPhase env elapsed state =
      inboundPhase env elapsed (withChannel false state) >>= thenLost env := by
  funext core
  simp only [inboundPhase, Code.bind_apply, withChannel]
  generalize serve state.batch.revokedSessions elapsed (fun r => r.1) _ 0
    state.batch.requests core = result
  obtain ⟨o, core₁⟩ := result
  cases o with
  | panicked => rfl
  | done result =>
    cases result with
    | error reason => rfl
    | ok served =>
      obtain ⟨dispatched, requests⟩ := served
      dsimp only
      split
      · next hleft => exact (thenLost_left env h (.inl hleft) core₁).symm
      · simp only [Code.bind_apply]
        generalize serve state.batch.revokedSessions elapsed (fun n => n.1) _ dispatched
          state.batch.notifications core₁ = result
        obtain ⟨o, core₂⟩ := result
        cases o with
        | panicked => rfl
        | done result =>
          cases result with
          | error reason => rfl
          | ok served =>
            obtain ⟨n, notifications⟩ := served
            dsimp only
            split
            · next hleft => exact (thenLost_left env h (.inr hleft) core₂).symm
            · rfl

theorem dispatchBatch_closed (elapsed : Nat → Bool) (state : LoopState)
    (h : state.batch.channelClosed = true) :
    dispatchBatch env elapsed state =
      dispatchBatch env elapsed (withChannel false state) >>= thenLost env := by
  funext core
  have hphases : frameworkPhases env (withChannel false state).batch =
      frameworkPhases env state.batch := rfl
  simp only [dispatchBatch, Code.bind_apply, hphases]
  have hsync : (withChannel false state).batch.syncRequests = state.batch.syncRequests := rfl
  rw [hsync]
  cases Code.forEach (processSyncRequest env) state.batch.syncRequests core with
  | mk o core₁ =>
    cases o with
    | panicked => rfl
    | done _ =>
      dsimp only
      cases frameworkPhases env state.batch core₁ with
      | mk o core₂ =>
        cases o with
        | panicked => rfl
        | done exit =>
          cases exit with
          | some reason => rfl
          | none =>
            simp only [Code.bind_apply]
            have hwrites : (withChannel false state).batch.ctlWrites = state.batch.ctlWrites := rfl
            rw [hwrites]
            cases Code.forEach (fun payload => do let _ ← trySend env 0 payload)
                state.batch.ctlWrites core₂ with
            | mk o core₃ =>
              cases o with
              | panicked => rfl
              | done _ =>
                exact congrFun (inboundPhase_closed env elapsed { state with
                  sharedWriter := state.sharedWriter || state.batch.newConnection = some true } h)
                  core₃

theorem lost_when_empty (elapsed : Nat → Bool) (state : LoopState) (core : LooperCore H)
    (before after : List Event) (htrace : (dispatchBatch env elapsed state core).2.trace =
      core.trace ++ before ++ .called .disconnected :: after) :
    state.batch.channelClosed = true ∧ ∃ state' core₁,
      dispatchBatch env elapsed (withChannel false state) core = (.done (.ok state'), core₁) ∧
      state'.batch.isEmpty ∧
      (dispatchBatch env elapsed state core).2 = (channelClosed env core₁).2 := by
  obtain ⟨rs, ns, rest, hran⟩ := adds_dispatchBatch env elapsed state core
  obtain ⟨hclosed, -⟩ := lost_of_ran hran htrace
  refine ⟨hclosed, ?_⟩
  rw [dispatchBatch_closed env elapsed state hclosed, Code.bind_apply] at htrace ⊢
  have hopen := adds_dispatchBatch env elapsed (withChannel false state) core
  unfold Ends at hopen
  cases hrun : dispatchBatch env elapsed (withChannel false state) core with
  | mk o core₁ =>
    rw [hrun] at htrace hopen
    -- with an open channel the connection is not lost
    have hnot : core₁.trace ≠ core.trace ++ before ++ .called .disconnected :: after := by
      intro he
      obtain ⟨rs, ns, rest, hran⟩ := hopen
      cases (lost_of_ran hran he).1
    cases o with
    | panicked => exact absurd htrace hnot
    | done result =>
      cases result with
      | error reason => exact absurd htrace hnot
      | ok state' =>
        simp only [thenLost] at htrace ⊢
        cases hempty : state'.batch.isEmpty with
        | false =>
          rw [hempty] at htrace
          exact absurd htrace hnot
        | true =>
          refine ⟨state', core₁, rfl, hempty, ?_⟩
          rw [if_pos rfl, Code.bind_apply]
          cases channelClosed env core₁ with
          | mk o core₂ => cases o <;> rfl

end Closing

def Ready (b : Batch) : Prop := b.hasPendingPhase5 = true ∨ b.isEmpty = true

theorem ready_inboundPhase (elapsed : Nat → Bool) (state : LoopState) (core : LooperCore H) :
    Ends (inboundPhase env elapsed state) core fun o _ =>
      ∀ state', o = .done (.ok state') → Ready state'.batch := by
  refine Ends.seq (R := fun _ _ => True) trivial ?_ fun _ _ _ h => by cases h
  intro result core₁ _
  cases result with
  | error reason => exact fun _ h => by cases h
  | ok served =>
    obtain ⟨dispatched, requests⟩ := served
    dsimp only
    split
    · next hleft =>
      intro state' h
      cases h
      exact .inl (by simp [Batch.hasPendingPhase5, Batch.remaining, hleft])
    · refine Ends.seq (R := fun _ _ => True) trivial ?_ fun _ _ _ h => by cases h
      intro result core₂ _
      cases result with
      | error reason => exact fun _ h => by cases h
      | ok served =>
        obtain ⟨n, notifications⟩ := served
        dsimp only
        split
        · next hleft =>
          intro state' h
          cases h
          exact .inl (by simp [Batch.hasPendingPhase5, Batch.remaining, hleft])
        · split
          · refine Ends.seq (R := fun _ _ => True) trivial ?_ fun _ _ _ h => by cases h
            exact fun reason core₃ _ => Ends.pure fun _ h => by cases h
          · next hopen =>
            intro state' h
            cases h
            exact .inr (by simp [Batch.isEmpty, Batch.remaining, Batch.new, hopen])

theorem ready_dispatchBatch (elapsed : Nat → Bool) (state : LoopState) (core : LooperCore H) :
    Ends (dispatchBatch env elapsed state) core fun o _ =>
      ∀ state', o = .done (.ok state') → Ready state'.batch := by
  refine Ends.seq (R := fun _ _ => True) trivial ?_ fun _ _ _ h => by cases h
  intro _ core₁ _
  refine Ends.seq (R := fun _ _ => True) trivial ?_ fun _ _ _ h => by cases h
  intro exit core₂ _
  cases exit with
  | some reason => exact Ends.pure fun _ h => by cases h
  | none =>
    refine Ends.seq (R := fun _ _ => True) trivial ?_ fun _ _ _ h => by cases h
    exact fun _ core₃ _ => ready_inboundPhase env elapsed _ core₃

theorem Tracked.congr {pc : Postcard} {past : List Tick}
    {requests : List (UInt16 × Token × Bytes)} {notifications : List (UInt16 × Bytes)}
    {trace trace' : List Event} (h : Tracked pc past requests notifications trace)
    (htrace : trace'.filter isVisible = trace.filter isVisible) :
    Tracked pc past requests notifications trace' := by
  have hfilter : ∀ {α : Type} {f : Event → Option α}, (∀ {e}, isVisible e = false → f e = none) →
      trace'.filterMap f = trace.filterMap f := by
    intro α f hf
    have hvisible : ∀ es : List Event, (es.filter isVisible).filterMap f = es.filterMap f := by
      intro es
      rw [List.filterMap_filter]
      apply List.filterMap_congr
      intro e _
      cases he : isVisible e with
      | true => simp
      | false => simp [hf he]
    rw [← hvisible trace', htrace, hvisible]
  refine ⟨?_, ?_⟩
  · rw [hfilter requestIn_of_hidden]
    exact h.requests
  · rw [hfilter notificationIn_of_hidden]
    exact h.notifications

theorem Tracked.drop_last {pc : Postcard} {past : List Tick}
    {requests : List (UInt16 × Token × Bytes)} {notifications : List (UInt16 × Bytes)}
    {before after : List Event}
    (h : Tracked pc past requests notifications (before ++ .called .disconnected :: after))
    (hafter : after.filter isVisible = []) : Tracked pc past requests notifications before := by
  have hnone : ∀ {α : Type} {f : Event → Option α}, (∀ {e}, isVisible e = false → f e = none) →
      f (.called .disconnected) = none →
      (before ++ .called .disconnected :: after).filterMap f = before.filterMap f := by
    intro α f hf hlost
    have htail : after.filterMap f = [] := by
      apply List.filterMap_eq_nil_iff.mpr
      intro e he
      exact hf (by simpa using List.filter_eq_nil_iff.mp hafter e he)
    rw [List.filterMap_append, List.filterMap_cons_none hlost, htail, List.append_nil]
  refine ⟨?_, ?_⟩
  · rw [← hnone requestIn_of_hidden rfl]
    exact h.requests
  · rw [← hnone notificationIn_of_hidden rfl]
    exact h.notifications

theorem split_of_notMem {trace es before after : List Event} {e : Event} (he : e ∉ trace)
    (h : trace ++ es = before ++ e :: after) : ∃ before', before = trace ++ before' := by
  obtain ⟨before', rfl, -⟩ | ⟨tail, htrace, hes⟩ := List.append_eq_append_iff.mp h
  · exact ⟨before', rfl⟩
  · cases tail with
    | nil => exact ⟨[], by simpa using htrace.symm⟩
    | cons e' tail =>
      obtain ⟨rfl, -⟩ := List.cons.inj hes
      rw [htrace] at he
      simp at he

/-- What a run has done with what arrived. When the end of the connection is
announced, everything that arrived has been dispatched before. -/
structure Kept (pc : Postcard) (past ticks : List Tick)
    (o : Outcome (Except ExitReason LoopState)) (trace : List Event) (polled : List Tick)
    (requests : List (UInt16 × Token × Bytes)) (notifications : List (UInt16 × Bytes)) : Prop where
  start : polled <+: ticks
  tracked : Tracked pc (past ++ polled) requests notifications trace
  left : ∀ state, o = .done (.ok state) → polled = ticks ∧ requests = state.batch.requests ∧
    notifications = state.batch.notifications
  lost : ∀ before after, trace = before ++ .called .disconnected :: after →
    Tracked pc (past ++ polled) [] [] before

section Runs

variable {past ticks polled : List Tick} {tick : Tick} {state : LoopState}
  {o : Outcome (Except ExitReason LoopState)} {rest : Batch}
  {rs requests : List (UInt16 × Token × Bytes)} {ns notifications : List (UInt16 × Bytes)}

theorem kept_of_hidden
    (h : Tracked env.pc past state.batch.requests state.batch.notifications core.trace)
    (hnot : .called .disconnected ∉ core.trace) (hhidden : Hidden core core')
    (hok : ∀ state, o ≠ .done (.ok state)) :
    Kept env.pc past ticks o core'.trace [] state.batch.requests state.batch.notifications := by
  obtain ⟨es, htrace, hes⟩ := hhidden
  refine ⟨List.nil_prefix, ?_, fun state' h => absurd h (hok state'), ?_⟩
  · rw [List.append_nil]
    apply h.congr
    rw [htrace, List.filter_append, hes, List.append_nil]
  · intro before after hsplit
    have hmem : .called .disconnected ∈ core.trace ++ es := by
      rw [← htrace, hsplit]
      simp
    obtain hmem | hmem := List.mem_append.mp hmem
    · exact absurd hmem hnot
    · exact absurd (List.filter_eq_nil_iff.mp hes _ hmem) (by simp [isVisible])

theorem ran_of_lost {b : Batch} (hran : Ran b rest rs ns o core core')
    (hnot : .called .disconnected ∉ core.trace) {before after : List Event}
    (hsplit : core'.trace = before ++ .called .disconnected :: after) :
    rest = b.remaining [] [] ∧ (∀ state, o ≠ .done (.ok state)) ∧ after.filter isVisible = [] := by
  obtain ⟨-, seen, last, -, ⟨es, htrace, -⟩, -⟩ := id hran
  obtain ⟨before', rfl⟩ := split_of_notMem hnot (htrace.symm.trans hsplit)
  exact (lost_of_ran hran hsplit).2

theorem kept_of_ran
    (h : Tracked env.pc past state.batch.requests state.batch.notifications core.trace)
    (hrevoked : ∀ s ∈ state.batch.revokedSessions, Revoked past s)
    (hnot : .called .disconnected ∉ core.trace)
    (hran : Ran (tick.inputs.foldl (collectInput env.pc) state.batch) rest rs ns o core core')
    (hok : ∀ state, o ≠ .done (.ok state)) :
    Kept env.pc past (tick :: ticks) o core'.trace [tick] rest.requests rest.notifications := by
  obtain ⟨htracked, -⟩ := tracked_tick env h hrevoked hran
  refine ⟨by simp, htracked, fun state' h => absurd h (hok state'), fun before after hsplit => ?_⟩
  obtain ⟨rfl, -, hafter⟩ := ran_of_lost hran hnot hsplit
  rw [hsplit] at htracked
  exact htracked.drop_last hafter

theorem Kept.cons {pc : Postcard} {trace : List Event}
    (h : Kept pc (past ++ [tick]) ticks o trace polled requests notifications) :
    Kept pc past (tick :: ticks) o trace (tick :: polled) requests notifications where
  start := (List.prefix_cons_inj tick).mpr h.start
  tracked := by simpa using h.tracked
  left state hstate := by
    obtain ⟨rfl, hleft⟩ := h.left state hstate
    exact ⟨rfl, hleft⟩
  lost before after hsplit := by simpa using h.lost before after hsplit

end Runs

theorem kept_runTicks {past : List Tick} (state : LoopState) (ticks : List Tick)
    (core : LooperCore H)
    (h : Tracked env.pc past state.batch.requests state.batch.notifications core.trace)
    (hrevoked : ∀ s ∈ state.batch.revokedSessions, Revoked past s)
    (hnot : .called .disconnected ∉ core.trace) :
    Ends (runTicks env state ticks) core fun o core' => ∃ polled requests notifications,
      Kept env.pc past ticks o core'.trace polled requests notifications := by
  induction ticks generalizing past state core with
  | nil =>
    refine Ends.pure ⟨[], _, _, List.prefix_rfl, by simpa using h, fun state' h => ?_, ?_⟩
    · cases h
      exact ⟨rfl, rfl, rfl⟩
    · intro before after htrace
      rw [htrace] at hnot
      simp at hnot
  | cons tick ticks ih =>
    refine Ends.seq (adds_tickStep env state tick core) ?_ ?_
    · intro result core₁ hstep
      cases result with
      | error reason =>
        obtain ⟨-, hhidden, -⟩ | ⟨-, rs, ns, rest, hran⟩ := hstep
        · exact Ends.pure ⟨_, _, _, kept_of_hidden env h hnot hhidden nofun⟩
        · exact Ends.pure ⟨_, _, _, kept_of_ran env h hrevoked hnot hran nofun⟩
      | ok state' =>
        obtain ⟨-, -, hok, -⟩ | ⟨-, rs, ns, rest, hran⟩ := hstep
        · exact absurd rfl (hok state')
        · obtain ⟨htracked, hrevoked'⟩ := tracked_tick env h hrevoked hran
          have hnot' : .called .disconnected ∉ core₁.trace := by
            intro hmem
            obtain ⟨before, after, hsplit⟩ := List.append_of_mem hmem
            exact (ran_of_lost hran hnot hsplit).2.1 state' rfl
          have hrest : state'.batch = rest := by
            obtain ⟨-, seen, last, hconcluded, -⟩ := hran
            exact (hconcluded.left state' rfl).1
          subst hrest
          apply (ih state' core₁ htracked hrevoked' hnot').mono
          rintro o core₂ ⟨polled, requests, notifications, hkept⟩
          exact ⟨tick :: polled, requests, notifications, hkept.cons⟩
    · rintro core₁ (⟨-, hhidden, -⟩ | ⟨-, rs, ns, rest, hran⟩)
      · exact ⟨_, _, _, kept_of_hidden env h hnot hhidden nofun⟩
      · exact ⟨_, _, _, kept_of_ran env h hrevoked hnot hran nofun⟩

theorem kept_run (handler : H) (primaryConnection : PeerScope) (ticks : List Tick) :
    Ends (runTicks env ⟨Batch.new, false⟩ ticks) (LooperCore.new handler primaryConnection)
      fun o core => ∃ polled requests notifications,
        Kept env.pc [] ticks o core.trace polled requests notifications := by
  have hnone : ∀ {α : Type} {session : α → UInt16}, Scheduled (Revoked []) session [] [] [] :=
    ⟨[], rfl, .nil⟩
  apply kept_runTicks env ⟨Batch.new, false⟩ ticks _ ⟨hnone, hnone⟩
  · intro s hs
    exact absurd hs (AList.notMem_empty s)
  · exact List.not_mem_nil

/-- Batches lose nothing and do not stall. In every run, requests are dispatched
in the order of arrival and so are notifications, each once, but for revoked
sessions and what an exit discards; a batch that the loop goes on with is empty
or keeps the poll from blocking; and when `connection_lost` runs, everything
that arrived has been dispatched and the batch is empty. -/
theorem batch_scheduling (handler : H) (primaryConnection : PeerScope) :
    (∀ ticks, Ends (runTicks env ⟨Batch.new, false⟩ ticks) (LooperCore.new handler primaryConnection)
      fun o core => ∃ polled requests notifications,
        Kept env.pc [] ticks o core.trace polled requests notifications) ∧
    (∀ elapsed state core, Ends (dispatchBatch env elapsed state) core fun o _ =>
      ∀ state', o = .done (.ok state') →
        state'.batch.hasPendingPhase5 = true ∨ state'.batch.isEmpty = true) ∧
    ∀ elapsed state core before after, (dispatchBatch env elapsed state core).2.trace =
        core.trace ++ before ++ .called .disconnected :: after →
      state.batch.channelClosed = true ∧ ∃ state' core₁,
        dispatchBatch env elapsed (withChannel false state) core = (.done (.ok state'), core₁) ∧
        state'.batch.isEmpty ∧
        (dispatchBatch env elapsed state core).2 = (channelClosed env core₁).2 := by
  exact ⟨kept_run env handler primaryConnection, ready_dispatchBatch env, lost_when_empty env⟩

def twoTicks : List Tick :=
  [⟨[ArrivalOrder.notifyFive, ArrivalOrder.requestFive, ArrivalOrder.requestFive], false,
      fun _ => true⟩,
    ⟨[.closed], false, fun _ => true⟩, ⟨[], false, fun _ => true⟩]

theorem batch_scheduling_of_two_ticks :
    let run := runTicks (Env.idle postcard) ⟨Batch.new, false⟩ twoTicks (LooperCore.new () ⟨1⟩)
    run.1 = .done (.error .disconnected) ∧ .called .disconnected ∈ run.2.trace ∧
      ∃ polled requests notifications,
        Kept postcard [] twoTicks run.1 run.2.trace polled requests notifications :=
  ⟨rfl, by decide +kernel, (batch_scheduling (Env.idle postcard) () ⟨1⟩).1 twoTicks⟩

end Pane.BatchScheduling
