import Pane.LooperSafety
import Pane.PostcardFormat

namespace Pane.PanicContainment

open Pane.HashTable Pane.Messages Pane.Correlator Pane.Callbacks Pane.Unwinding Pane.LooperState
open Pane.CoreDispatch Pane.CoreRequest Pane.Looper Pane.CoreRuns Pane.Cascades Pane.LiveCore
open Pane.LooperSafety Pane.PostcardFormat

variable {H : Type} (env : Env H) {core : LooperCore H}

/-- The failure closures that the cascades of a run set out to call do not panic. -/
def CalmCascades (core : LooperCore H) : Prop := ∀ x ∈ core.cascaded, Calm env x

/-- No `subscriber_connected` asks for a sender that is not there. -/
def SendersClaimable (core : LooperCore H) : Prop :=
  ∀ s s', .unclaimable (.subscriberConnected s) s' ∉ core.trace

theorem not_escaped (hcalm : CalmCascades env core) (hsenders : SendersClaimable core) :
    ¬ Escaped env core := by
  rintro (⟨⟨x, hx, hnot⟩, -⟩ | ⟨-, s, s', hmem⟩)
  · exact hnot (hcalm x hx)
  · exact hsenders s s' hmem

/-- User code panics at some point of a run: the run fails and says so, and the
other requests that are outstanding then are failed. -/
def PanicsContained (reason : Option ExitReason) (core : LooperCore H) : Prop :=
  ∀ pre call outstanding post, core.trace = pre ++ .panicked call outstanding :: post →
    reason = some .failed ∧ .failed ∈ core.exitTx ∧
      ∀ t ∈ outstanding, token call ≠ some t → .called (.onFailed t) ∈ post

theorem panicsContained_of_over {reason : ExitReason} (h : Over reason core) :
    PanicsContained (some reason) core := by
  intro pre call outstanding post htrace
  obtain ⟨rfl, hfailed⟩ := h.contained pre call outstanding post htrace
  exact ⟨rfl, h.sent, hfailed⟩

theorem panicsContained_of_live (h : Live core) : PanicsContained none core := by
  intro pre call outstanding post htrace
  exact absurd (htrace ▸ List.mem_append_right pre List.mem_cons_self) (h.noPanic call outstanding)

/-- No panic of user code leaves a run in which the cascades are calm and
senders are only asked for where there is one. -/
theorem panics_contained (hframes : env.pc.FrameRoundTrip) (handler : H)
    (primaryConnection : PeerScope) :
    (∀ msgs o core, CoreRequest.run env msgs (LooperCore.new handler primaryConnection) = (o, core) →
      CalmCascades env core → SendersClaimable core →
        ∃ reason, o = .done reason ∧ PanicsContained (some reason) core) ∧
    (∀ setupFails ticks o core,
      Looper.run env setupFails ticks (LooperCore.new handler primaryConnection) = (o, core) →
        CalmCascades env core → SendersClaimable core →
          ∃ exit, o = .done exit ∧ PanicsContained exit core) := by
  have hrules := rules_live env hframes
  have hstart := live_new handler primaryConnection
  refine ⟨?_, ?_⟩
  · intro msgs o core hrun hcalm hsenders
    have hend := hrules.coreRun msgs hstart
    unfold Ends at hend
    rw [hrun] at hend
    cases o with
    | done reason => exact ⟨reason, rfl, panicsContained_of_over hend⟩
    | panicked => exact absurd hend (not_escaped env hcalm hsenders)
  · intro setupFails ticks o core hrun hcalm hsenders
    have hend := hrules.looperRun setupFails ticks hstart
    unfold Ends at hend
    rw [hrun] at hend
    cases o with
    | panicked => exact absurd hend (not_escaped env hcalm hsenders)
    | done exit =>
      cases exit with
      | none => exact ⟨none, rfl, panicsContained_of_live hend⟩
      | some reason => exact ⟨some reason, rfl, panicsContained_of_over hend⟩

section Samples

def forwarding (entry : DispatchEntry Unit) : Env Unit :=
  { Env.idle postcard with
    serviceDispatch.requestReceivers :=
      AList.singleton 5 ⟨7, fun _ => some fun port h =>
        .act h (.sendRequest ⟨1, 9⟩ (some []) entry) fun _ =>
          .act h (.plain (.reply port (some []))) fun _ => .ret h .cont⟩ }

def requestToForward : LooperMessage := .service 5 [0, 0, 1, 7]

def panicking : Env Unit :=
  { forwarding SyncRequest.entry with handler.closeRequested := fun h => .panic h }

def requestThenClose : List LooperMessage :=
  [requestToForward, .control (.lifecycle .closeRequested)]

theorem panics_contained_in_lifecycle :
    let run := CoreRequest.run panicking requestThenClose (LooperCore.new () ⟨1⟩)
    run.1 = .done .failed ∧ .failed ∈ run.2.exitTx ∧ .called (.onFailed 0) ∈ run.2.trace := by
  intro run
  have hcalm : CalmCascades panicking run.2 := by
    intro x hx
    have hcascaded : run.2.cascaded = [.inl SyncRequest.entry] := rfl
    rw [hcascaded, List.mem_singleton] at hx
    subst hx
    exact fun t core h => by cases h
  have hsenders : SendersClaimable run.2 := by
    intro s s' hmem
    have hnone : run.2.trace.all (fun e => !(e matches .unclaimable ..)) = true := rfl
    simpa using List.all_eq_true.mp hnone _ hmem
  obtain ⟨reason, hdone, hcontained⟩ := (panics_contained panicking postcard_frame () ⟨1⟩).1
    requestThenClose run.1 run.2 rfl hcalm hsenders
  have hpanicked : .panicked (.lifecycle .closeRequested) [0] ∈ run.2.trace := by decide +kernel
  obtain ⟨pre, post, hsplit⟩ := List.append_of_mem hpanicked
  obtain ⟨hreason, hsent, hfailed⟩ := hcontained pre _ _ post hsplit
  obtain rfl := Option.some.inj hreason
  refine ⟨hdone, hsent, ?_⟩
  rw [hsplit]
  exact List.mem_append_right _ (List.mem_cons_of_mem _ (hfailed 0 (by simp) (by simp [token])))

/-- A failure closure that panics when a teardown calls it: the panic leaves
`run`, and nobody is told. -/
theorem panic_leaves_teardown :
    let env := forwarding ⟨fun _ h => .ret h .cont, fun h => .panic h⟩
    let run := CoreRequest.run env [requestToForward, .control (.serviceTeardown 1 .connectionLost)]
      (LooperCore.new () ⟨1⟩)
    run.1 = .panicked ∧ run.2.exitTx = [] ∧ .panicked (.onFailed 0) [] ∈ run.2.trace :=
  ⟨rfl, rfl, by decide⟩

-- The other way out: `subscriber_sender` panics with the guard of the map in its
-- hands, and the looper locks the map again after its destruction.
example :
    let env := { Env.idle postcard with
      handler.subscriberConnected := fun _ h =>
        .act h (.subscriberSender 9) fun _ => .ret h .cont }
    let run := Looper.run env false
      [⟨[.message (.control (.interestAccepted ⟨List.replicate 16 0, rfl⟩ 5 1))], false,
        fun _ => false⟩] (LooperCore.new () ⟨1⟩)
    run.1 = .panicked ∧ run.2.exitTx = [.failed] :=
  ⟨rfl, rfl⟩

end Samples

end Pane.PanicContainment
