import Pane.BatchPhases
import Pane.PostcardFormat

namespace Pane.ArrivalOrder

open Pane.HashTable Pane.Messages Pane.Callbacks Pane.Unwinding Pane.LooperState
open Pane.CoreDispatch Pane.CoreRequest Pane.Looper Pane.CoreRuns Pane.VisibleEvents Pane.BatchPhases
open Pane.PostcardFormat

variable {H : Type} (env : Env H) {core core' : LooperCore H} {s : UInt16}

/-- The requests and notifications of a session, as they arrive. -/
def arrival (pc : Postcard) (s : UInt16) : Input → Option ServiceFrame
  | .message (.service sessionId payload) =>
    if sessionId = s then
      match pc.frameFromBytes payload with
      | some (.request token inner) => some (.request token inner)
      | some (.notification inner) => some (.notification inner)
      | _ => none
    else none
  | _ => none

def handedTo (s : UInt16) : Event → Option ServiceFrame
  | .handed sessionId frame => if sessionId = s then some frame else none
  | _ => none

def handedFrames (s : UInt16) (core : LooperCore H) : List ServiceFrame :=
  core.trace.filterMap (handedTo s)

def requestsTo (s : UInt16) (rs : List (UInt16 × Token × Bytes)) : List ServiceFrame :=
  rs.filterMap fun r => if r.1 = s then some (.request r.2.1 r.2.2) else none

def notificationsTo (s : UInt16) (ns : List (UInt16 × Bytes)) : List ServiceFrame :=
  ns.filterMap fun n => if n.1 = s then some (.notification n.2) else none

/-- What waits in a batch, in the order in which phase 5 will take it. -/
def waiting (s : UInt16) (b : Batch) : List ServiceFrame :=
  requestsTo s b.requests ++ notificationsTo s b.notifications

theorem handedFrames_of_adds {seen : List Event} (h : Adds seen core core') :
    handedFrames s core' = handedFrames s core ++ seen.filterMap (handedTo s) := by
  apply h.filterMap
  intro e he
  cases e <;> simp_all [isVisible, handedTo]

theorem filterMap_handedTo_phases {b : Batch} (hs : s ∉ b.revokedSessions)
    (rs : List (UInt16 × Token × Bytes)) (ns : List (UInt16 × Bytes)) :
    (disconnections b ++ connections b ++ handedOver b.revokedSessions rs ns).filterMap
      (handedTo s) = requestsTo s rs ++ notificationsTo s ns := by
  have hcalls : (disconnections b ++ connections b).filterMap (handedTo s) = [] := by
    rw [List.filterMap_eq_nil_iff]
    intro e he
    obtain he | he := List.mem_append.mp he
    · obtain ⟨a, -, he⟩ := List.mem_flatMap.mp he
      rw [List.mem_singleton.mp he]
      rfl
    · obtain ⟨a, -, he⟩ := List.mem_flatMap.mp he
      rw [List.mem_singleton.mp he]
      rfl
  have hrequests : ((rs.filter fun r => decide (r.1 ∉ b.revokedSessions)).map
      handedRequest).filterMap (handedTo s) = requestsTo s rs := by
    rw [List.filterMap_map, List.filterMap_filter]
    apply List.filterMap_congr
    intro r _
    by_cases hr : r.1 = s
    · simp [hr, hs, handedRequest, handedTo]
    · simp [hr, handedRequest, handedTo]
  have hnotifications : ((ns.filter fun n => decide (n.1 ∉ b.revokedSessions)).map
      handedNotification).filterMap (handedTo s) = notificationsTo s ns := by
    rw [List.filterMap_map, List.filterMap_filter]
    apply List.filterMap_congr
    intro n _
    by_cases hn : n.1 = s
    · simp [hn, hs, handedNotification, handedTo]
    · simp [hn, handedNotification, handedTo]
  rw [List.filterMap_append, hcalls, List.nil_append, handedOver, List.filterMap_append,
    hrequests, hnotifications]

theorem waiting_of_served {b rest : Batch} {rs : List (UInt16 × Token × Bytes)}
    {ns : List (UInt16 × Bytes)} (h : Served b rest rs ns) :
    waiting s b = requestsTo s rs ++ notificationsTo s ns ++ waiting s rest := by
  have hrequests : requestsTo s b.requests = requestsTo s rs ++ requestsTo s rest.requests := by
    rw [h.requests, requestsTo, List.filterMap_append]
    rfl
  have hnotifications : notificationsTo s b.notifications =
      notificationsTo s ns ++ notificationsTo s rest.notifications := by
    rw [h.notifications, notificationsTo, List.filterMap_append]
    rfl
  rw [waiting, waiting, hrequests, hnotifications]
  by_cases hns : ns = []
  · subst hns
    simp [notificationsTo]
  · rw [h.requestsFirst hns]
    simp [requestsTo]

section Collect

def Overtakes (pc : Postcard) (s : UInt16) (b : Batch) (input : Input) : Prop :=
  (∃ token inner, requestOf pc input = some (s, token, inner)) ∧ ∃ n ∈ b.notifications, n.1 = s

def InTurn (pc : Postcard) (s : UInt16) : Batch → List Input → Prop
  | _, [] => True
  | b, input :: inputs => ¬ Overtakes pc s b input ∧ InTurn pc s (collectInput pc b input) inputs

theorem notificationsTo_eq_nil {ns : List (UInt16 × Bytes)} :
    notificationsTo s ns = [] ↔ ∀ n ∈ ns, n.1 ≠ s := by
  simp [notificationsTo, List.filterMap_eq_nil_iff]

theorem arrival_toList (pc : Postcard) (input : Input) :
    (arrival pc s input).toList =
      requestsTo s (requestOf pc input).toList ++ notificationsTo s (notificationOf pc input).toList := by
  cases input with
  | message msg =>
    cases msg with
    | service sessionId payload =>
      by_cases hs : sessionId = s
      · cases hframe : pc.frameFromBytes payload with
        | none => simp [arrival, requestOf, notificationOf, hframe, requestsTo, notificationsTo]
        | some frame =>
          cases frame <;>
            simp [arrival, requestOf, notificationOf, hframe, requestsTo, notificationsTo, hs]
      · cases hframe : pc.frameFromBytes payload with
        | none => simp [arrival, requestOf, notificationOf, hframe, requestsTo, notificationsTo]
        | some frame =>
          cases frame <;>
            simp [arrival, requestOf, notificationOf, hframe, requestsTo, notificationsTo, hs]
    | _ => rfl
  | _ => rfl

theorem filterMap_singleton {α β : Type} (f : α → Option β) (a : α) :
    [a].filterMap f = (f a).toList := by
  cases h : f a <;> simp [h]

theorem waiting_collectInput (pc : Postcard) {b : Batch} {input : Input}
    (h : ¬ Overtakes pc s b input) :
    waiting s (collectInput pc b input) = waiting s b ++ (arrival pc s input).toList := by
  have hcollected := collected_collectInput pc b input
  have hrequests : requestsTo s (collectInput pc b input).requests =
      requestsTo s b.requests ++ requestsTo s (requestOf pc input).toList := by
    rw [hcollected.requests, filterMap_singleton, requestsTo, List.filterMap_append]
    rfl
  have hnotifications : notificationsTo s (collectInput pc b input).notifications =
      notificationsTo s b.notifications ++ notificationsTo s (notificationOf pc input).toList := by
    rw [hcollected.notifications, filterMap_singleton, notificationsTo, List.filterMap_append]
    rfl
  rw [waiting, waiting, hrequests, hnotifications, arrival_toList]
  by_cases hn : notificationsTo s b.notifications = []
  · simp [hn]
  · have hr : requestsTo s (requestOf pc input).toList = [] := by
      cases hrequest : requestOf pc input with
      | none => rfl
      | some r =>
        have hne : r.1 ≠ s := by
          rintro rfl
          refine h ⟨⟨r.2.1, r.2.2, hrequest⟩, ?_⟩
          by_contra hnone
          exact hn (notificationsTo_eq_nil.mpr fun n hmem heq => hnone ⟨n, hmem, heq⟩)
        simp [requestsTo, hne]
    simp [hr]

theorem waiting_foldl (pc : Postcard) (inputs : List Input) {b : Batch} (h : InTurn pc s b inputs) :
    waiting s (inputs.foldl (collectInput pc) b) =
      waiting s b ++ inputs.filterMap (arrival pc s) := by
  induction inputs generalizing b with
  | nil => simp
  | cons input inputs ih =>
    rw [List.foldl_cons, ih h.2, waiting_collectInput pc h.1, List.append_assoc,
      List.filterMap_cons]
    cases arrival pc s input <;> simp

theorem not_mem_revokedSessions (pc : Postcard) (inputs : List Input) {b : Batch}
    (hb : s ∉ b.revokedSessions) (h : ∀ input ∈ inputs, input ≠ .message (.localRevoke s)) :
    s ∉ (inputs.foldl (collectInput pc) b).revokedSessions := by
  induction inputs generalizing b with
  | nil => exact hb
  | cons input inputs ih =>
    refine ih ?_ fun x hx => h x (List.mem_cons_of_mem _ hx)
    have hinput := h input List.mem_cons_self
    cases input with
    | message msg =>
      cases msg with
      | control msg => cases msg <;> exact hb
      | newConnection registers => exact hb
      | service sessionId payload =>
        simp only [collectInput, Batch.collect]
        cases pc.frameFromBytes payload with
        | none => exact hb
        | some frame => cases frame <;> exact hb
      | localRevoke sessionId =>
        have hne : s ≠ sessionId := fun heq => hinput (by rw [heq])
        simp only [collectInput, Batch.collect, Batch.collectRevoke]
        split
        · exact hb
        · simpa [AList.mem_insert, hne] using hb
    | _ => exact hb

end Collect

/-- In every tick of a run, no request that is collected overtakes a notification. -/
def RunInTurn (s : UInt16) : LoopState → List Tick → LooperCore H → Prop
  | _, [], _ => True
  | state, tick :: ticks, core =>
    InTurn env.pc s state.batch tick.inputs ∧
      match tickStep env state tick core with
      | (.done (.ok state'), core') => RunInTurn s state' ticks core'
      | _ => True

theorem arrivals_of_tick {pc : Postcard} {inputs : List Input} {b rest : Batch}
    {rs : List (UInt16 × Token × Bytes)} {ns : List (UInt16 × Bytes)} {last : List Event}
    {o : Outcome (Except ExitReason LoopState)} (hturn : InTurn pc s b inputs)
    (hs : s ∉ (inputs.foldl (collectInput pc) b).revokedSessions)
    (hserved : Served (inputs.foldl (collectInput pc) b) rest rs ns)
    (hconcluded : Concluded (inputs.foldl (collectInput pc) b) rest last o)
    (hadds : Adds (disconnections (inputs.foldl (collectInput pc) b) ++
      connections (inputs.foldl (collectInput pc) b) ++
      handedOver (inputs.foldl (collectInput pc) b).revokedSessions rs ns ++ last) core core') :
    handedFrames s core ++ waiting s b ++ inputs.filterMap (arrival pc s) =
      handedFrames s core' ++ waiting s rest := by
  rw [handedFrames_of_adds hadds, List.filterMap_append, filterMap_handedTo_phases hs,
    hconcluded.filterMap_last rfl, List.append_nil, List.append_assoc,
    ← waiting_foldl pc inputs hturn, waiting_of_served hserved]
  simp only [List.append_assoc]

theorem arrivals_of_mainLoop (state : LoopState) (hs : s ∉ state.batch.revokedSessions)
    (ticks : List Tick)
    (hrevoked : ∀ tick ∈ ticks, ∀ input ∈ tick.inputs, input ≠ .message (.localRevoke s))
    (core : LooperCore H) (hturn : RunInTurn env s state ticks core) :
    Ends (mainLoop env state ticks) core fun o core' =>
      o = .done none ∨ o = .done (some .disconnected) →
        ∃ polled rest, polled <+: ticks ∧ (o = .done none → polled = ticks) ∧
          (o = .done (some .disconnected) → waiting s rest = []) ∧
          handedFrames s core ++ waiting s state.batch ++
            (polled.flatMap Tick.inputs).filterMap (arrival env.pc s) =
              handedFrames s core' ++ waiting s rest := by
  induction ticks generalizing state core with
  | nil =>
    refine Ends.pure fun _ => ⟨[], state.batch, List.prefix_rfl, fun _ => rfl, ?_, ?_⟩
    · exact fun h => by cases h
    · simp
  | cons tick ticks ih =>
    obtain ⟨htick, hrest⟩ := hturn
    have hs' := not_mem_revokedSessions env.pc tick.inputs hs (hrevoked tick List.mem_cons_self)
    refine Ends.seq (goesOn_tickStep env state tick core).result ?_ fun _ _ h => by simp at h
    rintro result core₁ ⟨h₁, hstep⟩
    cases result with
    | error reason =>
      intro hreason
      have hreason : reason = .disconnected := by simpa using hreason
      subst hreason
      obtain ⟨rs, ns, rest, last, hserved, hconcluded, hadds⟩ := h₁ (.inr rfl)
      obtain rfl := hconcluded.lost rfl
      refine ⟨[tick], (tick.inputs.foldl (collectInput env.pc) state.batch).remaining [] [],
        by simp, (fun h => by cases h), fun _ => rfl, ?_⟩
      rw [List.flatMap_singleton]
      exact arrivals_of_tick htick hs' hserved hconcluded hadds
    | ok state' =>
      obtain ⟨rs, ns, rest, last, hserved, hconcluded, hadds⟩ := h₁ (.inl ⟨state', rfl⟩)
      obtain ⟨rfl, -⟩ := hconcluded.left state' rfl
      rw [hstep] at hrest
      have hs'' : s ∉ state'.batch.revokedSessions := hserved.revokedSessions ▸ hs'
      apply (ih state' hs'' (fun t ht => hrevoked t (List.mem_cons_of_mem _ ht)) core₁ hrest).mono
      intro o core₂ ho hgoes
      obtain ⟨polled, rest, hprefix, hall, hempty, hbalance⟩ := ho hgoes
      refine ⟨tick :: polled, rest, (List.prefix_cons_inj tick).mpr hprefix,
        fun hnone => congrArg _ (hall hnone), hempty, ?_⟩
      rw [List.flatMap_cons, List.filterMap_append, ← List.append_assoc,
        arrivals_of_tick htick hs' hserved hconcluded hadds, hbalance]

/-- A run in which no request overtakes a notification of the session: its
frames are handed over in the order of arrival, and all of them if the run ends
with the connection. -/
theorem handed_in_arrival_order (handler : H) (primaryConnection : PeerScope) (ticks : List Tick)
    (o : Outcome (Option ExitReason)) (core : LooperCore H)
    (hrun : Looper.run env false ticks (LooperCore.new handler primaryConnection) = (o, core))
    (ho : o = .done none ∨ o = .done (some .disconnected))
    (hrevoked : ∀ tick ∈ ticks, ∀ input ∈ tick.inputs, input ≠ .message (.localRevoke s))
    (hturn : RunInTurn env s ⟨Batch.new, false⟩ ticks (LooperCore.new handler primaryConnection)) :
    ∃ polled, polled <+: ticks ∧ (o = .done none → polled = ticks) ∧
      handedFrames s core <+: (polled.flatMap Tick.inputs).filterMap (arrival env.pc s) ∧
      (o = .done (some .disconnected) →
        handedFrames s core = (polled.flatMap Tick.inputs).filterMap (arrival env.pc s)) := by
  have hloop := arrivals_of_mainLoop env ⟨Batch.new, false⟩ (AList.notMem_empty s) ticks hrevoked
    (LooperCore.new handler primaryConnection) hturn
  have hrun' : mainLoop env ⟨Batch.new, false⟩ ticks
      (LooperCore.new handler primaryConnection) = (o, core) := hrun
  unfold Ends at hloop
  rw [hrun'] at hloop
  obtain ⟨polled, rest, hprefix, hall, hempty, hbalance⟩ := hloop ho
  have harrived : (polled.flatMap Tick.inputs).filterMap (arrival env.pc s) =
      handedFrames s core ++ waiting s rest := hbalance
  refine ⟨polled, hprefix, hall, ⟨waiting s rest, harrived.symm⟩, fun hlost => ?_⟩
  rw [harrived, hempty hlost, List.append_nil]

section CoreRun

def seenOf (pc : Postcard) : LooperMessage → List Event
  | .service sessionId payload =>
    match pc.frameFromBytes payload with
    | some (.request token inner) => [.handed sessionId (.request token inner)]
    | some (.notification inner) => [.handed sessionId (.notification inner)]
    | _ => []
  | _ => []

theorem adds_handle (msg : LooperMessage) :
    Moves (Adds (seenOf env.pc msg)) (Adds (seenOf env.pc msg)) (handle env msg) := by
  have hcont : Moves (Hidden (H := H)) Hidden (pure DispatchOutcome.cont) := Moves.pure _
  have hthen {m : Loop H Unit} (hm : Moves Hidden Hidden m) :
      Moves Hidden Hidden (do m; return DispatchOutcome.cont) := Moves.bind hm fun _ => hcont
  cases msg with
  | newConnection registers => exact hcont
  | localRevoke sessionId => exact hthen (hidden_sendControl env _)
  | control msg =>
    cases msg with
    | lifecycle msg => exact hidden_dispatch env rfl _
    | paneExited address reason => exact hidden_dispatch env rfl _
    | serviceTeardown sessionId reason => exact hthen (hidden_cascade env _)
    | _ => exact hcont
  | service sessionId payload =>
    simp only [handle, dispatchService, seenOf]
    cases env.pc.frameFromBytes payload with
    | none => exact hcont
    | some frame =>
      cases frame with
      | notification inner => exact adds_dispatchNotification env sessionId inner
      | request token inner =>
        exact adds_dispatchRequestWithContext env false sessionId token inner
      | reply token bytes =>
        exact hidden_dispatchResolution env token rfl _ rfl
      | failed token => exact hidden_dispatchResolution env token rfl _ rfl

theorem filterMap_handedTo_seenOf (pc : Postcard) (msg : LooperMessage) :
    (seenOf pc msg).filterMap (handedTo s) = (arrival pc s (.message msg)).toList := by
  cases msg with
  | service sessionId payload =>
    simp only [seenOf, arrival]
    by_cases hs : sessionId = s
    · cases pc.frameFromBytes payload with
      | none => simp
      | some frame => cases frame <;> simp [handedTo, hs]
    · cases pc.frameFromBytes payload with
      | none => simp
      | some frame => cases frame <;> simp [handedTo, hs]
  | _ => rfl

theorem coreRun_in_arrival_order (msgs : List LooperMessage) (core : LooperCore H) :
    Ends (CoreRequest.run env msgs) core fun _ core' =>
      handedFrames s core' <+:
        handedFrames s core ++ (msgs.map Input.message).filterMap (arrival env.pc s) := by
  induction msgs generalizing core with
  | nil =>
    apply (parting_channelClosed env core).mono
    have hnone : [Event.called .disconnected].filterMap (handedTo s) = [] := rfl
    rintro _ core' (h | h) <;> rw [handedFrames_of_adds h] <;> simp [hnone]
  | cons msg msgs ih =>
    have hstep (core core' : LooperCore H) (h : Adds (seenOf env.pc msg) core core') :
        handedFrames s core' = handedFrames s core ++ (arrival env.pc s (.message msg)).toList := by
      rw [handedFrames_of_adds h, filterMap_handedTo_seenOf]
    have harrived : ((msg :: msgs).map Input.message).filterMap (arrival env.pc s) =
        (arrival env.pc s (.message msg)).toList ++
          (msgs.map Input.message).filterMap (arrival env.pc s) := by
      rw [List.map_cons, ← List.singleton_append, List.filterMap_append, filterMap_singleton]
    refine Ends.seq ((adds_handle env msg).always core) ?_ ?_
    · intro outcome core₁ h₁
      rw [harrived, ← List.append_assoc, ← hstep core core₁ h₁]
      cases outcome with
      | exit reason => exact Ends.pure (List.prefix_append _ _)
      | cont => exact ih core₁
    · intro core₁ h₁
      rw [harrived, ← List.append_assoc, ← hstep core core₁ h₁]
      exact List.prefix_append _ _

end CoreRun

section Samples

def notifyFive : Input := .message (.service 5 [3, 1, 7])

def requestFive : Input := .message (.service 5 [0, 0, 1, 7])

theorem handed_in_arrival_order_of_one_batch :
    let run := Looper.run (Env.idle postcard) false [Tick.of [requestFive, notifyFive]]
      (LooperCore.new () ⟨1⟩)
    run.1 = .done none ∧ (handedFrames 5 run.2).length = 2 ∧
      handedFrames 5 run.2 <+: [.request 0 [7], .notification [7]] := by
  intro run
  have hgoes : run.1 = .done none := rfl
  have hturn : RunInTurn (Env.idle postcard) 5 ⟨Batch.new, false⟩
      [Tick.of [requestFive, notifyFive]] (LooperCore.new () ⟨1⟩) := by
    refine ⟨⟨?_, ?_, trivial⟩, ?_⟩
    · rintro ⟨-, n, hn, -⟩
      cases hn
    · rintro ⟨⟨token, inner, h⟩, -⟩
      cases h
    · split <;> trivial
  obtain ⟨polled, -, hall, hprefix, -⟩ := handed_in_arrival_order (Env.idle postcard) () ⟨1⟩
    [Tick.of [requestFive, notifyFive]] run.1 run.2 rfl (.inl hgoes)
    (by simp [Tick.of, requestFive, notifyFive]) hturn
  have hpolled := hall hgoes
  subst hpolled
  exact ⟨hgoes, rfl, hprefix⟩

/-- A notification and then a request in one batch are handed over the other way
round. -/
theorem request_overtakes :
    let inputs := [notifyFive, requestFive, .closed]
    let run := Looper.run (Env.idle postcard) false [Tick.of inputs] (LooperCore.new () ⟨1⟩)
    run.1 = .done (some .disconnected) ∧
      inputs.filterMap (arrival postcard 5) = [.notification [7], .request 0 [7]] ∧
      handedFrames 5 run.2 = [.request 0 [7], .notification [7]] :=
  ⟨rfl, rfl, rfl⟩

end Samples

end Pane.ArrivalOrder
