import Pane.LooperSafety
import Pane.PostcardFormat

namespace Pane.ExactlyOnce

open Pane.HashTable Pane.Messages Pane.Correlator Pane.Callbacks Pane.Unwinding Pane.LooperState
open Pane.CoreDispatch Pane.CoreRequest Pane.Looper Pane.CoreRuns Pane.RequestLedger
open Pane.Cascades Pane.Destruction Pane.LiveCore Pane.Resolutions Pane.LooperSafety
open Pane.PostcardFormat

variable {H : Type} (env : Env H) {core core' : LooperCore H} {t : Token}

def invokes (t : Token) : Event → Bool
  | .called (.onReply u _) => u = t
  | .called (.onFailed u) => u = t
  | _ => false

def fails (t : Token) : Event → Bool
  | .called (.onFailed u) => u = t
  | _ => false

def isDisturbance : Event → Bool
  | .panicked (.onFailed _) _ => true
  | .futureGone _ => true
  | _ => false

def Undisturbed (core : LooperCore H) : Prop := core.trace.all fun e => !isDisturbance e

/-- Every request whose frame was queued has had exactly one of its closures
called, and no entry was dropped without a call. -/
structure SettledOnce (core : LooperCore H) : Prop where
  once : ∀ t, .queued t ∈ core.trace → core.trace.countP (invokes t) = 1
  kept : ∀ t, .discarded t ∉ core.trace

theorem not_cascadeBroke (h : Undisturbed core) : ¬ CascadeBroke env core := by
  rintro ⟨-, ⟨t, p, hmem⟩ | ⟨t, hmem⟩⟩
  · simpa [isDisturbance] using List.all_eq_true.mp h _ hmem
  · simpa [isDisturbance] using List.all_eq_true.mp h _ hmem

theorem countP_add {p q r : Event → Bool} (hr : ∀ e, r e = (p e || q e))
    (hpq : ∀ e, p e → q e = false) (es : List Event) :
    es.countP r = es.countP p + es.countP q := by
  induction es with
  | nil => rfl
  | cons e es ih =>
    rw [List.countP_cons, List.countP_cons, List.countP_cons, ih, hr]
    by_cases hp : p e
    · simp only [hp, hpq e hp, Bool.or_false]
      simp only [if_true, Bool.false_eq_true, if_false]
      omega
    · simp only [hp, Bool.false_or]
      simp only [Bool.false_eq_true, if_false]
      omega

theorem countP_settles (es : List Event) (t : Token) :
    es.countP (settles t) = es.countP (invokes t) + es.countP (fun e => e = .cancelled t) := by
  apply countP_add
  · intro e
    cases e with
    | called call => cases call <;> simp [settles, invokes]
    | _ => simp [settles, invokes]
  · intro e he
    cases e <;> simp_all [invokes]

theorem countP_decides (es : List Event) (t : Token) :
    es.countP (decides t) =
      es.countP (fun e => e = .queued t) + es.countP (fun e => e = .cancelled t) := by
  apply countP_add
  · intro e
    cases e <;> simp [decides]
  · intro e he
    cases e <;> simp_all

theorem settledOnce_of_over {reason : ExitReason} (h : Over reason core) : SettledOnce core := by
  refine ⟨fun t hqueued => ?_, h.ledger.kept⟩
  have hpending : ¬ Pending core t := by
    rw [Pending, h.entries]
    exact AList.notMem_empty _
  have hsettled := h.ledger.settled t
  have hdecided := h.ledger.decided t
  have hle := h.ledger.installed_le_one t
  have hone : 1 ≤ core.trace.countP (fun e => e = .queued t) := by
    rw [Nat.one_le_iff_ne_zero, ← Nat.pos_iff_ne_zero, List.countP_pos_iff]
    exact ⟨_, hqueued, by simp⟩
  rw [if_neg hpending, countP_settles] at hsettled
  rw [countP_decides] at hdecided
  omega

theorem settledOnce_of_escaped (hcalm : Undisturbed core) (h : Escaped env core) :
    SettledOnce core := by
  obtain hbroke | ⟨⟨reason, hover⟩, -⟩ := h
  · exact absurd hbroke (not_cascadeBroke env hcalm)
  · exact settledOnce_of_over hover

theorem fails_of_dispatchTeardown (hlive : Live core) (sessionId : UInt16) :
    Ends (dispatchTeardown env sessionId) core fun o core' => Undisturbed core' →
      o = .done () ∧ ∃ es, core'.trace = core.trace ++ es ∧ ∀ t, es.countP (fails t) =
        if sessionOf core t = some sessionId ∧ Pending core t then 1 else 0 := by
  apply (swept_dispatchTeardown env sessionId hlive).mono
  intro o core' ho hcalm
  cases o with
  | panicked => exact absurd ho (not_cascadeBroke env hcalm)
  | done _ =>
    obtain ⟨es, htrace, -, hcount⟩ := ho.trace
    refine ⟨rfl, es, htrace, fun t => ?_⟩
    have hfails : es.countP (fails t) = es.countP (fun e => e = .called (.onFailed t)) := by
      apply List.countP_congr
      intro e _
      cases e with
      | called call => cases call <;> simp [fails]
      | _ => simp [fails]
    rw [hfails, hcount t]
    exact if_congr (and_congr (RequestCorrelator.mem_tokensForSession _ _) Iff.rfl) rfl rfl

/-- Every installed request is resolved exactly once, in both loops and for
every way in which they end. -/
theorem requests_settled_exactly_once (hframes : env.pc.FrameRoundTrip) (handler : H)
    (primaryConnection : PeerScope) :
    (∀ msgs o core, CoreRequest.run env msgs (LooperCore.new handler primaryConnection) = (o, core) →
      Undisturbed core → SettledOnce core) ∧
    (∀ setupFails ticks o core,
      Looper.run env setupFails ticks (LooperCore.new handler primaryConnection) = (o, core) →
        o ≠ .done none → Undisturbed core → SettledOnce core) ∧
    (∀ core sessionId, Reachable env core →
      Ends (dispatchTeardown env sessionId) core fun o core' => Undisturbed core' →
        o = .done () ∧ ∃ es, core'.trace = core.trace ++ es ∧ ∀ t, es.countP (fails t) =
          if sessionOf core t = some sessionId ∧ Pending core t then 1 else 0) := by
  have hrules := rules_live env hframes
  have hstart := live_new handler primaryConnection
  refine ⟨?_, ?_, ?_⟩
  · intro msgs o core hrun hcalm
    have hend := hrules.coreRun msgs hstart
    unfold Ends at hend
    rw [hrun] at hend
    cases o with
    | done reason => exact settledOnce_of_over hend
    | panicked => exact settledOnce_of_escaped env hcalm hend
  · intro setupFails ticks o core hrun hended hcalm
    have hend := hrules.looperRun setupFails ticks hstart
    unfold Ends at hend
    rw [hrun] at hend
    cases o with
    | panicked => exact settledOnce_of_escaped env hcalm hend
    | done exit =>
      cases exit with
      | none => exact absurd rfl hended
      | some reason => exact settledOnce_of_over hend
  · intro core sessionId hcore
    exact fails_of_dispatchTeardown env (live_of_reachable env hcore) sessionId

theorem requests_settled_exactly_once_at_the_end :
    let run := Looper.run (Env.idle postcard) false
      [⟨[.sync ⟨1, [7]⟩], false, fun _ => false⟩, ⟨[.closed], false, fun _ => false⟩]
      (LooperCore.new () ⟨1⟩)
    run.1 = .done (some .disconnected) ∧ Event.queued 0 ∈ run.2.trace ∧
      run.2.trace.countP (invokes 0) = 1 := by
  intro run
  have hqueued : Event.queued 0 ∈ run.2.trace := by decide
  have hlost : run.1 = .done (some .disconnected) := rfl
  have hcalm : Undisturbed run.2 := rfl
  have hsettled := (requests_settled_exactly_once (Env.idle postcard) postcard_frame () ⟨1⟩).2.1
    false _ run.1 run.2 rfl (by rw [hlost]; simp) hcalm
  exact ⟨hlost, hqueued, hsettled.once 0 hqueued⟩

end Pane.ExactlyOnce
