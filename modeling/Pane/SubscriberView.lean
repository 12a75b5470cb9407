import Pane.BatchPhases
import Pane.PostcardFormat

namespace Pane.SubscriberView

open Pane.HashTable Pane.Messages Pane.Callbacks Pane.Unwinding Pane.LooperState
open Pane.CoreRequest Pane.Looper Pane.CoreRuns Pane.VisibleEvents Pane.BatchPhases
open Pane.PostcardFormat

variable {H : Type} (env : Env H) {core core' : LooperCore H} {s : UInt16}

/-- What the handler of a provider is told about its subscribers. -/
inductive Report
  | connected (sessionId : UInt16)
  | disconnected (sessionId : UInt16)
deriving DecidableEq

def reportOf : Event → Option Report
  | .called (.subscriberConnected sessionId) => some (.connected sessionId)
  | .called (.subscriberDisconnected sessionId _) => some (.disconnected sessionId)
  | _ => none

def reports (core : LooperCore H) : List Report := core.trace.filterMap reportOf

/-- A subscriber is connected and not disconnected later. -/
def Subscribed (s : UInt16) (rs : List Report) : Prop :=
  ∃ pre post, rs = pre ++ .connected s :: post ∧ .disconnected s ∉ post

def batchReports (inputs : List Input) : List Report :=
  (inputs.filterMap teardownOf).map (fun a => .disconnected a.1) ++
    (inputs.filterMap acceptedOf).map .connected

theorem reports_of_adds {seen : List Event} (h : Adds seen core core') :
    reports core' = reports core ++ seen.filterMap reportOf := by
  apply h.filterMap
  intro e
  cases e with
  | called call => cases call <;> simp [isVisible, reportOf]
  | _ => simp [isVisible, reportOf]

theorem filterMap_reportOf_phases (b : Batch) (rs : List (UInt16 × Token × Bytes))
    (ns : List (UInt16 × Bytes)) :
    (disconnections b ++ connections b ++ handedOver b.revokedSessions rs ns).filterMap reportOf =
      b.teardowns.map (fun a => .disconnected a.1) ++ b.subscriberConnected.map .connected := by
  have hhanded : (handedOver b.revokedSessions rs ns).filterMap reportOf = [] := by
    rw [List.filterMap_eq_nil_iff]
    intro e he
    obtain he | he := List.mem_append.mp he
    · obtain ⟨r, -, rfl⟩ := List.mem_map.mp he
      rfl
    · obtain ⟨n, -, rfl⟩ := List.mem_map.mp he
      rfl
  rw [List.filterMap_append, List.filterMap_append, hhanded, List.append_nil, disconnections,
    connections, List.filterMap_flatMap, List.filterMap_flatMap, List.map_eq_flatMap,
    List.map_eq_flatMap]
  rfl

theorem reports_tick {pc : Postcard} {inputs : List Input} {b b' rest : Batch}
    {rs : List (UInt16 × Token × Bytes)} {ns : List (UInt16 × Bytes)} {last : List Event}
    {o : Outcome (Except ExitReason LoopState)} (hconcluded : Concluded b' rest last o)
    (hcollected : Collected pc inputs b b') (hteardowns : b.teardowns = [])
    (hconnected : b.subscriberConnected = [])
    (h : Adds (disconnections b' ++ connections b' ++ handedOver b'.revokedSessions rs ns ++ last)
      core core') : reports core' = reports core ++ batchReports inputs := by
  rw [reports_of_adds h, List.filterMap_append, filterMap_reportOf_phases,
    hconcluded.filterMap_last rfl, List.append_nil, hcollected.teardowns,
    hcollected.subscriberConnected, hteardowns, hconnected]
  rfl

theorem reports_mainLoop (state : LoopState) (hteardowns : state.batch.teardowns = [])
    (hconnected : state.batch.subscriberConnected = []) (ticks : List Tick)
    (core : LooperCore H) :
    Ends (mainLoop env state ticks) core fun o core' =>
      o = .done none ∨ o = .done (some .disconnected) →
        ∃ polled, polled <+: ticks ∧ (o = .done none → polled = ticks) ∧
          reports core' = reports core ++ polled.flatMap fun tick => batchReports tick.inputs := by
  induction ticks generalizing state core with
  | nil => exact fun _ => ⟨[], List.prefix_rfl, fun _ => rfl, (List.append_nil _).symm⟩
  | cons tick ticks ih =>
    have hcollected := collected_foldl env.pc tick.inputs state.batch
    refine Ends.seq (goesOn_tickStep env state tick core) ?_ fun _ _ h => by simp at h
    intro result core₁ h₁
    cases result with
    | error reason =>
      intro hreason
      have hreason : reason = .disconnected := by simpa using hreason
      subst hreason
      obtain ⟨rs, ns, rest, last, -, hconcluded, hadds⟩ := h₁ (.inr rfl)
      refine ⟨[tick], by simp, by simp, ?_⟩
      simpa using reports_tick hconcluded hcollected hteardowns hconnected hadds
    | ok state' =>
      obtain ⟨rs, ns, rest, last, hserved, hconcluded, hadds⟩ := h₁ (.inl ⟨state', rfl⟩)
      obtain ⟨rfl, -⟩ := hconcluded.left state' rfl
      apply (ih state' hserved.teardowns hserved.subscriberConnected core₁).mono
      intro o core₂ ho hgoes
      obtain ⟨polled, hprefix, hall, hreports⟩ := ho hgoes
      refine ⟨tick :: polled, (List.prefix_cons_inj tick).mpr hprefix,
        fun hnone => congrArg _ (hall hnone), ?_⟩
      rw [hreports, reports_tick hconcluded hcollected hteardowns hconnected hadds, List.append_assoc,
        List.flatMap_cons]

section Batches

theorem connected_mem_batchReports {inputs : List Input} :
    .connected s ∈ batchReports inputs ↔ ∃ x ∈ inputs, acceptedOf x = some s := by
  simp [batchReports]

theorem disconnected_mem_batchReports {inputs : List Input} :
    .disconnected s ∈ batchReports inputs ↔ ∃ x ∈ inputs, ∃ r, teardownOf x = some (s, r) := by
  simp only [batchReports, List.mem_append, List.mem_map, List.mem_filterMap, Prod.exists]
  grind

/-- In a sequence of messages, no teardown of the session is before its acceptance. -/
def TearsDownLast (s : UInt16) (inputs : List Input) : Prop :=
  ∀ pre x post, inputs = pre ++ x :: post → acceptedOf x = some s →
    ∀ y ∈ pre, ∀ r, teardownOf y ≠ some (s, r)

/-- No batch holds both an acceptance and a teardown of the session. -/
def Separate (s : UInt16) (batches : List (List Input)) : Prop :=
  ∀ inputs ∈ batches, ∀ x ∈ inputs, acceptedOf x = some s →
    ∀ y ∈ inputs, ∀ r, teardownOf y ≠ some (s, r)

theorem append_cons_split {α : Type} {as bs pre post : List α} {a : α}
    (h : as ++ bs = pre ++ a :: post) :
    (∃ post', as = pre ++ a :: post') ∨ ∃ pre', pre = as ++ pre' ∧ bs = pre' ++ a :: post := by
  obtain ⟨pre', rfl, hbs⟩ | ⟨post', has, hpost⟩ := List.append_eq_append_iff.mp h
  · exact .inr ⟨pre', rfl, hbs⟩
  · cases post' with
    | nil => exact .inr ⟨[], by simpa using has.symm, hpost.symm⟩
    | cons b post' =>
      obtain ⟨rfl, -⟩ := List.cons.inj hpost
      exact .inl ⟨post', has⟩

theorem not_disconnected_before {batches : List (List Input)} (hsep : Separate s batches)
    (hlast : TearsDownLast s batches.flatten) {pre post : List Report}
    (h : batches.flatMap batchReports = pre ++ .connected s :: post) :
    .disconnected s ∉ pre := by
  induction batches generalizing pre with
  | nil => simp at h
  | cons inputs batches ih =>
    intro hmem
    rw [List.flatMap_cons] at h
    obtain ⟨post', hfirst⟩ | ⟨pre', rfl, hrest⟩ := append_cons_split h
    · have hconnected : .connected s ∈ batchReports inputs :=
        hfirst ▸ List.mem_append_right _ List.mem_cons_self
      have hdisconnected : .disconnected s ∈ batchReports inputs :=
        hfirst ▸ List.mem_append_left _ hmem
      obtain ⟨x, hx, haccepted⟩ := connected_mem_batchReports.mp hconnected
      obtain ⟨y, hy, r, htorn⟩ := disconnected_mem_batchReports.mp hdisconnected
      exact hsep inputs List.mem_cons_self x hx haccepted y hy r htorn
    · have hconnected : .connected s ∈ batches.flatMap batchReports :=
        hrest ▸ List.mem_append_right _ List.mem_cons_self
      obtain ⟨later, hlater, hconnected⟩ := List.mem_flatMap.mp hconnected
      obtain ⟨x, hx, haccepted⟩ := connected_mem_batchReports.mp hconnected
      obtain hmem | hmem := List.mem_append.mp hmem
      · obtain ⟨y, hy, r, htorn⟩ := disconnected_mem_batchReports.mp hmem
        obtain ⟨before, after, hsplit⟩ :=
          List.append_of_mem (List.mem_flatten.mpr ⟨later, hlater, hx⟩)
        refine hlast (inputs ++ before) x after ?_ haccepted y (List.mem_append_left _ hy) r htorn
        rw [List.flatten_cons, hsplit, List.append_assoc]
      · refine ih (fun b hb => hsep b (List.mem_cons_of_mem _ hb)) ?_ hrest hmem
        intro before x after hsplit haccepted y hy
        refine hlast (inputs ++ before) x after ?_ haccepted y (List.mem_append_right _ hy)
        rw [List.flatten_cons, hsplit, List.append_assoc]

variable {batches : List (List Input)}

theorem connected_before_disconnected (hsep : Separate s batches)
    (hlast : TearsDownLast s batches.flatten) {pre post : List Report}
    (h : batches.flatMap batchReports = pre ++ .disconnected s :: post)
    (haccepted : ∃ x ∈ batches.flatten, acceptedOf x = some s) : .connected s ∈ pre := by
  obtain ⟨x, hx, haccepted⟩ := haccepted
  obtain ⟨inputs, hinputs, hx⟩ := List.mem_flatten.mp hx
  have hconnected : .connected s ∈ batches.flatMap batchReports :=
    List.mem_flatMap.mpr ⟨inputs, hinputs, connected_mem_batchReports.mpr ⟨x, hx, haccepted⟩⟩
  rw [h, List.mem_append, List.mem_cons] at hconnected
  obtain hpre | heq | hpost := hconnected
  · exact hpre
  · cases heq
  · obtain ⟨between, after, rfl⟩ := List.append_of_mem hpost
    rw [← List.cons_append, ← List.append_assoc] at h
    exact absurd (List.mem_append_right _ List.mem_cons_self)
      (not_disconnected_before hsep hlast h)

theorem subscribed_iff (hsep : Separate s batches) (hlast : TearsDownLast s batches.flatten) :
    Subscribed s (batches.flatMap batchReports) ↔
      (∃ x ∈ batches.flatten, acceptedOf x = some s) ∧
        ∀ y ∈ batches.flatten, ∀ r, teardownOf y ≠ some (s, r) := by
  have hdisconnected : .disconnected s ∈ batches.flatMap batchReports ↔
      ∃ y ∈ batches.flatten, ∃ r, teardownOf y = some (s, r) := by
    simp only [List.mem_flatMap, disconnected_mem_batchReports, List.mem_flatten]
    grind
  have hconnected : .connected s ∈ batches.flatMap batchReports ↔
      ∃ x ∈ batches.flatten, acceptedOf x = some s := by
    simp only [List.mem_flatMap, connected_mem_batchReports, List.mem_flatten]
    grind
  constructor
  · rintro ⟨pre, post, heq, hpost⟩
    refine ⟨hconnected.mp (heq ▸ List.mem_append_right _ List.mem_cons_self), ?_⟩
    intro y hy r htorn
    have hmem := hdisconnected.mpr ⟨y, hy, r, htorn⟩
    rw [heq, List.mem_append, List.mem_cons] at hmem
    obtain hpre | heq' | hpost' := hmem
    · exact not_disconnected_before hsep hlast heq hpre
    · cases heq'
    · exact hpost hpost'
  · rintro ⟨haccepted, hnot⟩
    obtain ⟨pre, post, heq⟩ := List.append_of_mem (hconnected.mpr haccepted)
    refine ⟨pre, post, heq, fun hpost => ?_⟩
    obtain ⟨y, hy, r, htorn⟩ := hdisconnected.mp
      (heq ▸ List.mem_append_right _ (List.mem_cons_of_mem _ hpost))
    exact hnot y hy r htorn

end Batches

/-- The view a provider has of its subscribers while its looper goes on, or when
the connection ends. In every batch the disconnections are reported before the
connections. For a session whose acceptance and teardown do not share a batch
the reports come in order, and the view is exact in the end. -/
theorem subscriber_view (handler : H) (primaryConnection : PeerScope) (ticks : List Tick)
    (o : Outcome (Option ExitReason)) (core : LooperCore H)
    (hrun : Looper.run env false ticks (LooperCore.new handler primaryConnection) = (o, core))
    (ho : o = .done none ∨ o = .done (some .disconnected)) :
    ∃ polled, polled <+: ticks ∧ (o = .done none → polled = ticks) ∧
      reports core = polled.flatMap (fun tick => batchReports tick.inputs) ∧
      ∀ s, Separate s (polled.map Tick.inputs) → TearsDownLast s (polled.map Tick.inputs).flatten →
        ((∃ x ∈ (polled.map Tick.inputs).flatten, acceptedOf x = some s) →
          ∀ pre post, reports core = pre ++ .disconnected s :: post → .connected s ∈ pre) ∧
        (Subscribed s (reports core) ↔
          (∃ x ∈ (polled.map Tick.inputs).flatten, acceptedOf x = some s) ∧
            ∀ y ∈ (polled.map Tick.inputs).flatten, ∀ r, teardownOf y ≠ some (s, r)) := by
  have hloop := reports_mainLoop env ⟨Batch.new, false⟩ rfl rfl ticks
    (LooperCore.new handler primaryConnection)
  have hrun' : mainLoop env ⟨Batch.new, false⟩ ticks
      (LooperCore.new handler primaryConnection) = (o, core) := hrun
  unfold Ends at hloop
  rw [hrun'] at hloop
  obtain ⟨polled, hprefix, hall, hreports⟩ := hloop ho
  have hbatches : reports core = (polled.map Tick.inputs).flatMap batchReports := by
    rw [hreports, List.flatMap_map]
    rfl
  refine ⟨polled, hprefix, hall, hreports, fun s hsep hlast => ⟨?_, ?_⟩⟩
  · intro haccepted pre post hpre
    exact connected_before_disconnected hsep hlast (hbatches ▸ hpre) haccepted
  · rw [hbatches]
    exact subscribed_iff hsep hlast

section Samples

def acceptFive : Input := .message (.control (.interestAccepted (Uuid.replicate 0) 5 1))

def tearDownFive : Input := .message (.control (.serviceTeardown 5 .connectionLost))

theorem tearsDownLast_five : TearsDownLast 5 [acceptFive, tearDownFive] := by
  intro pre x post h haccepted y hy r htorn
  match pre, h with
  | [], _ => simp at hy
  | [_], h =>
    simp only [List.cons_append, List.nil_append, List.cons.injEq] at h
    obtain ⟨-, rfl, -⟩ := h
    simp [tearDownFive, acceptedOf] at haccepted
  | _ :: _ :: _, h => simp at h

theorem subscriber_view_of_two_batches :
    let run := Looper.run (Env.idle postcard) false [Tick.of [acceptFive], Tick.of [tearDownFive]]
      (LooperCore.new () ⟨1⟩)
    run.1 = .done none ∧ reports run.2 = [.connected 5, .disconnected 5] ∧
      ¬ Subscribed 5 (reports run.2) := by
  intro run
  have hgoes : run.1 = .done none := rfl
  obtain ⟨polled, -, hall, hreports, hview⟩ := subscriber_view (Env.idle postcard) () ⟨1⟩
    [Tick.of [acceptFive], Tick.of [tearDownFive]] run.1 run.2 rfl (.inl hgoes)
  have hpolled := hall hgoes
  subst hpolled
  have hsep : Separate 5 ([Tick.of [acceptFive], Tick.of [tearDownFive]].map Tick.inputs) := by
    simp [Separate, Tick.of, acceptFive, tearDownFive, acceptedOf, teardownOf]
  refine ⟨hgoes, hreports, fun hsubscribed => ?_⟩
  have hnot := ((hview 5 hsep tearsDownLast_five).2.mp hsubscribed).2
  exact hnot tearDownFive (by simp [Tick.of]) .connectionLost rfl

/-- In one batch the same two messages are reported the other way round, and
the subscriber stays connected for the handler. A session that was never accepted is
reported as disconnected when it is torn down. -/
theorem one_batch_reversed :
    let run := Looper.run (Env.idle postcard) false [Tick.of [acceptFive, tearDownFive]]
      (LooperCore.new () ⟨1⟩)
    let stray := Looper.run (Env.idle postcard) false [Tick.of [tearDownFive]]
      (LooperCore.new () ⟨1⟩)
    (run.1 = .done none ∧ TearsDownLast 5 [acceptFive, tearDownFive] ∧
      reports run.2 = [.disconnected 5, .connected 5] ∧ Subscribed 5 (reports run.2)) ∧
    stray.1 = .done none ∧ TearsDownLast 5 [tearDownFive] ∧ Separate 5 [[tearDownFive]] ∧
      reports stray.2 = [.disconnected 5] := by
  refine ⟨⟨rfl, tearsDownLast_five, rfl, [.disconnected 5], [], rfl, by simp⟩, rfl, ?_, ?_, rfl⟩
  · intro pre x post h haccepted
    have hmem : x ∈ [tearDownFive] := h ▸ List.mem_append_right _ List.mem_cons_self
    rw [List.mem_singleton.mp hmem] at haccepted
    cases haccepted
  · simp [Separate, tearDownFive, acceptedOf]

end Samples

end Pane.SubscriberView
