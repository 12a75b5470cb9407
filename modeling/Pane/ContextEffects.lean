import Pane.CallbackEffects
import Pane.CoreMoves

namespace Pane.ContextEffects

open Pane.HashTable Pane.Messages Pane.Correlator Pane.Callbacks Pane.Unwinding Pane.LooperState
open Pane.CallbackEffects Pane.CoreDispatch Pane.CoreRequest Pane.Looper Pane.CoreMoves

variable {H : Type} (env : Env H) {core core' : LooperCore H} {call : Call}

def isWork : Event → Bool
  | .handed .. => false
  | .called .. => false
  | .panicked .. => false
  | _ => true

structure Passes (E : Event → Prop) (N : Note → Prop) (core core' : LooperCore H) : Prop where
  exited : core'.exited = core.exited
  exitTx : core'.exitTx = core.exitTx
  trace : ∃ es, core'.trace = core.trace ++ es ∧ ∀ e ∈ es, E e
  notes : ∃ ns, core'.notes = core.notes ++ ns ∧ ∀ n ∈ ns, N n.2

/-- The effect of the library, whenever it is not calling user code; `direct` says that
a frame may go straight into the buffer of the connection. -/
abbrev WorksWith (direct : Bool) (core core' : LooperCore H) : Prop :=
  Passes (isWork ·) (fun n => n = .direct ∧ direct = true) core core'

abbrev Works (core core' : LooperCore H) : Prop := WorksWith false core core'

section Passes

variable {E E' : Event → Prop} {N N' : Note → Prop}

theorem Passes.mono (h : Passes E N core core') (hE : ∀ e, E e → E' e) (hN : ∀ n, N n → N' n) :
    Passes E' N' core core' := by
  obtain ⟨es, htrace, hes⟩ := h.trace
  obtain ⟨ns, hnotes, hns⟩ := h.notes
  exact ⟨h.exited, h.exitTx, ⟨es, htrace, fun e he => hE e (hes e he)⟩,
    ⟨ns, hnotes, fun n hn => hN n.2 (hns n hn)⟩⟩

theorem Passes.trans {core'' : LooperCore H} (h : Passes E N core core')
    (h' : Passes E N core' core'') : Passes E N core core'' := by
  obtain ⟨es, htrace, hes⟩ := h.trace
  obtain ⟨es', htrace', hes'⟩ := h'.trace
  obtain ⟨ns, hnotes, hns⟩ := h.notes
  obtain ⟨ns', hnotes', hns'⟩ := h'.notes
  refine ⟨h'.exited.trans h.exited, h'.exitTx.trans h.exitTx, ⟨es ++ es', ?_, ?_⟩, ⟨ns ++ ns', ?_, ?_⟩⟩
  · rw [htrace', htrace, List.append_assoc]
  · exact fun e he => (List.mem_append.mp he).elim (hes e) (hes' e)
  · rw [hnotes', hnotes, List.append_assoc]
  · exact fun n hn => (List.mem_append.mp hn).elim (hns n) (hns' n)

theorem Passes.silent (htrace : core'.trace = core.trace) (hnotes : core'.notes = core.notes)
    (hexited : core'.exited = core.exited) (hexitTx : core'.exitTx = core.exitTx) :
    Passes E N core core' :=
  ⟨hexited, hexitTx, ⟨[], by simpa using htrace, by simp⟩, ⟨[], by simpa using hnotes, by simp⟩⟩

theorem Passes.event {e : Event} (he : E e) (htrace : core'.trace = core.trace ++ [e])
    (hnotes : core'.notes = core.notes) (hexited : core'.exited = core.exited)
    (hexitTx : core'.exitTx = core.exitTx) : Passes E N core core' :=
  ⟨hexited, hexitTx, ⟨[e], htrace, by simpa using he⟩, ⟨[], by simpa using hnotes, by simp⟩⟩

theorem Passes.note {n : Note} (hn : N n) (core : LooperCore H) : Passes E N core (core.note n) :=
  ⟨rfl, rfl, ⟨[], by simp [LooperCore.note], by simp⟩, ⟨[_], rfl, by simpa using hn⟩⟩

instance : Std.Refl (Passes E N (H := H)) := ⟨fun _ => .silent rfl rfl rfl rfl⟩

instance : Trans (Passes E N (H := H)) (Passes E N) (Passes E N) := ⟨Passes.trans⟩

end Passes

theorem works_silent {f : LooperCore H → LooperCore H} (htrace : ∀ core, (f core).trace = core.trace)
    (hnotes : ∀ core, (f core).notes = core.notes) (hexited : ∀ core, (f core).exited = core.exited)
    (hexitTx : ∀ core, (f core).exitTx = core.exitTx) : Moves Works Works (Code.modify f) :=
  Moves.modify fun core => .silent (htrace core) (hnotes core) (hexited core) (hexitTx core)

theorem works_event {f : LooperCore H → LooperCore H} {e : LooperCore H → Event}
    (he : ∀ core, isWork (e core)) (htrace : ∀ core, (f core).trace = core.trace ++ [e core])
    (hnotes : ∀ core, (f core).notes = core.notes) (hexited : ∀ core, (f core).exited = core.exited)
    (hexitTx : ∀ core, (f core).exitTx = core.exitTx) : Moves Works Works (Code.modify f) :=
  Moves.modify fun core =>
    .event (he core) (htrace core) (hnotes core) (hexited core) (hexitTx core)

theorem works_log {e : Event} (he : isWork e) : Moves (Works (H := H)) Works (log e) :=
  works_event (fun _ => he) (fun _ => rfl) (fun _ => rfl) (fun _ => rfl) fun _ => rfl

theorem Works.with (direct : Bool) (h : Works core core') : WorksWith direct core core' :=
  h.mono (fun _ he => he) fun _ hn => absurd hn.2 Bool.false_ne_true

theorem works_with {α : Type} {m : Loop H α} (direct : Bool) (h : Moves Works Works m) :
    Moves (WorksWith direct) (WorksWith direct) m :=
  h.mono (fun _ _ => Works.with direct) fun _ _ => Works.with direct

theorem works_trySend (service : UInt16) (payload : Bytes) :
    Moves Works Works (trySend env service payload) :=
  moves_trySend (works_log rfl) (works_log rfl)

theorem works_sendControl (msg : ControlMessage) : Moves Works Works (sendControl env msg) :=
  moves_sendControl (works_trySend env 0)

theorem works_subscriberSender (sessionId : UInt16) :
    Moves Works Works (subscriberSender (H := H) call sessionId) := by
  refine Moves.bind (Moves.gets _) fun poisoned => ?_
  split
  · exact Moves.unwind
  · refine Moves.bind (Moves.gets _) fun found => ?_
    split
    · exact works_silent (fun _ => rfl) (fun _ => rfl) (fun _ => rfl) fun _ => rfl
    · refine Moves.bind (works_event (e := fun _ => .unclaimable call sessionId) ?_ ?_ ?_ ?_ ?_)
        fun _ => Moves.unwind
      all_goals exact fun _ => rfl

theorem works_perform (effect : Effect) : Moves Works Works (perform env call effect) :=
  moves_perform (works_trySend env) (fun _ _ => .silent rfl rfl rfl rfl) (fun _ _ => works_log rfl)
    (fun _ _ => works_log rfl) works_subscriberSender effect

theorem works_settle (token : Token) (entry : AsyncDispatchEntry) {event : Event}
    (hevent : isWork event) : Moves (Works (H := H)) Works (settle token entry event) := by
  unfold settle
  split
  · exact Moves.bind (works_log rfl) fun _ => Moves.unwind
  · exact works_log hevent

theorem works_cancel (token : Token) : Moves (Works (H := H)) Works (cancel token) := by
  refine Moves.bind (Moves.gets _) fun key => Moves.bind (Moves.gets _) fun found => ?_
  split
  · refine Moves.bind (works_event (e := fun _ => .cancelled token) ?_ ?_ ?_ ?_ ?_)
      fun _ => Moves.pure _
    all_goals exact fun _ => rfl
  · refine Moves.bind (Moves.gets _) fun entry => ?_
    cases entry with
    | none => exact Moves.pure _
    | some entry =>
      refine Moves.bind (works_silent (fun _ => rfl) (fun _ => rfl) (fun _ => rfl) fun _ => rfl) ?_
      exact fun _ => Moves.bind (works_settle token entry rfl) fun _ => Moves.pure _

theorem works_recordResolution (token : Token) :
    Moves (Works (H := H)) Works (recordResolution token) :=
  works_silent (fun _ => rfl) (fun _ => rfl) (fun _ => rfl) fun _ => rfl

theorem works_insert (sessionId : UInt16) (entry : DispatchEntry H) :
    Moves Works Works (insert sessionId entry) := fun core =>
  .event (e := .installed core.activeSession.correlator.nextToken sessionId) rfl rfl rfl rfl rfl

theorem works_insertAsync (sessionId : UInt16) (futureDropped : Bool) :
    Moves (Works (H := H)) Works (insertAsync sessionId futureDropped) := fun core =>
  .event (e := .installedAsync core.activeSession.correlator.nextToken sessionId)
    rfl rfl rfl rfl rfl

theorem works_sendRequestFrame (direct : Bool) (sessionId : UInt16) (token : Token)
    (payload : Bytes) :
    Moves (WorksWith direct) (WorksWith direct)
      (sendRequestFrame env direct sessionId token payload) :=
  moves_sendRequestFrame (fun hdirect => Passes.note ⟨rfl, hdirect⟩)
    (fun _ => works_with direct (works_log rfl))
    (fun outer => works_with direct (works_trySend env sessionId outer))
    (works_with direct (works_log rfl))

theorem works_installAndSend (direct : Bool) (handle : ServiceHandle) (msg : Option Bytes)
    (entry : DispatchEntry H) :
    Moves (WorksWith direct) (WorksWith direct) (installAndSend env direct handle msg entry) :=
  moves_installAndSend (works_with direct (works_insert _ _))
    (works_sendRequestFrame env direct handle.sessionId)
    (fun token => works_with direct (works_cancel token))
    fun token => works_with direct (works_recordResolution token)

theorem works_performCtx (direct : Bool) (call : Call) (effect : CtxEffect H) :
    Moves (WorksWith direct) (WorksWith direct) (performCtx env direct call effect) :=
  moves_performCtx (fun effect => works_with direct (works_perform env effect))
    (fun _ _ => works_with direct (works_insertAsync _ _)) (works_installAndSend env direct) effect

theorem works_processSyncRequest (req : SyncRequest) :
    Moves Works Works (processSyncRequest env req) := by
  refine Moves.bind (works_insert _ _) fun token => ?_
  refine Moves.bind (works_sendRequestFrame env _ _ _ _) fun answer => ?_
  cases answer with
  | ok _ => exact Moves.pure _
  | error _ => exact Moves.bind (works_cancel token) fun _ => works_recordResolution token

theorem works_sendFailed (sessionId : UInt16) (token : Token) :
    Moves Works Works (sendFailed env sessionId token) := by
  unfold sendFailed
  split
  · exact Moves.bind (works_trySend env _ _) fun _ => Moves.pure _
  · exact Moves.pure _

theorem works_openPort (sessionId : UInt16) (token : Token) (payload : Bytes) :
    Moves (Works (H := H)) Works (openPort sessionId token payload) := fun core =>
  .event (e := .portOpened core.trace.length sessionId token payload) rfl rfl rfl rfl rfl

theorem works_lockEnqueues (f : HashSet UInt16 → HashSet UInt16) :
    Moves (Works (H := H)) Works (lockEnqueues f) :=
  moves_lockEnqueues f fun _ => .silent rfl rfl rfl rfl

theorem ends_entered {E : Type} {perform : E → Loop H (Except Backpressure Unit)} {direct : Bool}
    (hperform : ∀ effect, Moves (WorksWith direct) (WorksWith direct) (perform effect))
    (code : H → Script E H) (core : LooperCore H) :
    Ends (enter perform call code) core fun o core' =>
      ∃ core₁, WorksWith direct (core.log (.called call)) core₁ ∧
      match o with
      | .done flow => core' = core₁.note (.returned call flow)
      | .panicked => core' = core₁.log (.panicked call core₁.outstanding) := by
  have hrun := moves_runScript (D := WorksWith direct) (P := WorksWith direct)
    (fun _ _ => .silent rfl rfl rfl rfl) hperform (code core.handler)
  apply ends_enter
  apply (hrun.always (core.log (.called call))).mono
  intro o core₁ h
  cases o with
  | done flow => exact ⟨core₁, h, rfl⟩
  | panicked => exact ⟨core₁, h, rfl⟩

end Pane.ContextEffects
