import Pane.LooperState

namespace Pane.CallbackEffects

open Pane.HashTable Pane.Messages Pane.Correlator Pane.Callbacks Pane.Unwinding Pane.LooperState
open Pane.Unwinding.Code (unwind gets modify catchUnwind forEach)

variable {H : Type}

structure Stays (core core' : LooperCore H) : Prop where
  dispatch : core'.dispatch = core.dispatch
  activeSession : core'.activeSession = core.activeSession
  primaryConnection : core'.primaryConnection = core.primaryConnection
  exitTx : core'.exitTx = core.exitTx
  exited : core'.exited = core.exited
  cascaded : core'.cascaded = core.cascaded

theorem Stays.refl (core : LooperCore H) : Stays core core := ⟨rfl, rfl, rfl, rfl, rfl, rfl⟩

theorem Stays.trans {a b c : LooperCore H} (h : Stays a b) (h' : Stays b c) : Stays a c :=
  ⟨h'.dispatch.trans h.dispatch, h'.activeSession.trans h.activeSession,
    h'.primaryConnection.trans h.primaryConnection, h'.exitTx.trans h.exitTx,
    h'.exited.trans h.exited, h'.cascaded.trans h.cascaded⟩

def isMinor : Event → Bool
  | .sent .. => true
  | .refused .. => true
  | .portAnswered .. => true
  | .replyLost .. => true
  | .unclaimable .. => true
  | _ => false

structure Still (core core' : LooperCore H) : Prop where
  stays : Stays core core'
  poisoned : core'.poisoned = core.poisoned
  trace : ∃ es, core'.trace = core.trace ++ es ∧ ∀ e ∈ es, isMinor e

/-- Its effect when it panics: the map of subscribers may be poisoned, but only
by a `subscriber_sender` that found nothing. -/
structure Quiet (call : Call) (core core' : LooperCore H) : Prop where
  stays : Stays core core'
  trace : ∃ es, core'.trace = core.trace ++ es ∧ (∀ e ∈ es, isMinor e) ∧
    (core'.poisoned = core.poisoned ∨ ∃ s, Event.unclaimable call s ∈ es)

variable {call : Call} {core : LooperCore H}

theorem Still.single {core' : LooperCore H} {e : Event} (h : Stays core core')
    (htrace : core'.trace = core.trace ++ [e]) (hminor : isMinor e)
    (hpoisoned : core'.poisoned = core.poisoned) : Still core core' :=
  ⟨h, hpoisoned, [e], htrace, by simpa using hminor⟩

theorem Still.silent {core' : LooperCore H} (h : Stays core core')
    (htrace : core'.trace = core.trace) (hpoisoned : core'.poisoned = core.poisoned) :
    Still core core' :=
  ⟨h, hpoisoned, [], by simpa using htrace, by simp⟩

theorem Still.quiet {core' : LooperCore H} (h : Still core core') : Quiet call core core' := by
  obtain ⟨hstays, hpoisoned, es, htrace, hminor⟩ := h
  exact ⟨hstays, es, htrace, hminor, .inl hpoisoned⟩

instance : Std.Refl (Still (H := H)) := ⟨fun core => .silent (.refl core) rfl rfl⟩

instance : Std.Refl (Quiet call (H := H)) := ⟨fun core => Still.quiet (.silent (.refl core) rfl rfl)⟩

theorem minor_append {es es' : List Event} (h : ∀ e ∈ es, isMinor e) (h' : ∀ e ∈ es', isMinor e) :
    ∀ e ∈ es ++ es', isMinor e := by
  intro e he
  obtain he | he := List.mem_append.mp he
  · exact h e he
  · exact h' e he

instance : IsTrans (LooperCore H) Still where
  trans a b c h h' := by
    obtain ⟨hstays, hpoisoned, es, htrace, hminor⟩ := h
    obtain ⟨hstays', hpoisoned', es', htrace', hminor'⟩ := h'
    exact ⟨hstays.trans hstays', hpoisoned'.trans hpoisoned, es ++ es', by simp [htrace, htrace'],
      minor_append hminor hminor'⟩

instance : Trans (Still (H := H)) (Quiet call) (Quiet call) where
  trans {a b c} h h' := by
    obtain ⟨hstays, hpoisoned, es, htrace, hminor⟩ := h
    obtain ⟨hstays', es', htrace', hminor', hpoisoned'⟩ := h'
    refine ⟨hstays.trans hstays', es ++ es', by simp [htrace, htrace'],
      minor_append hminor hminor', ?_⟩
    obtain heq | ⟨s, hs⟩ := hpoisoned'
    · exact .inl (heq.trans hpoisoned)
    · exact .inr ⟨s, List.mem_append_right _ hs⟩

theorem still_log {e : Event} (h : isMinor e) : Moves (Still (H := H)) (Quiet call) (log e) :=
  Moves.modify fun _ => .single ⟨rfl, rfl, rfl, rfl, rfl, rfl⟩ rfl h rfl

variable (env : Env H)

theorem trySend_apply (service : UInt16) (payload : Bytes) (core : LooperCore H) :
    trySend env service payload core =
      match env.trySend core.trace.length with
      | .ok u => (.done (.ok u), core.log (.sent service payload))
      | .error b => (.done (.error b), core.log (.refused service payload)) := by
  cases h : env.trySend core.trace.length with
  | ok u => simp [trySend, log, Code.bind_apply, h]
  | error b => simp [trySend, log, Code.bind_apply, h]

-- The effects of user code are writes to the channel and to the map of ports. A
-- relation that these keep is kept by all effects.
section Rules

variable {env} {D P : LooperCore H → LooperCore H → Prop}

theorem moves_sendFrame [Std.Refl P] {sessionId : UInt16} {frame : ServiceFrame}
    (hsend : ∀ payload, Moves D P (trySend env sessionId payload)) :
    Moves D P (sendFrame env sessionId frame) := by
  unfold sendFrame
  split
  · exact hsend _
  · exact Moves.unwind

variable [Std.Refl D] [Trans D D D] [Trans D P P]

theorem moves_trySend {service : UInt16} {payload : Bytes}
    (hsent : Moves D P (log (H := H) (.sent service payload)))
    (hrefused : Moves D P (log (H := H) (.refused service payload))) :
    Moves D P (trySend env service payload) := by
  refine Moves.bind (Moves.gets _) fun answer => ?_
  cases answer with
  | ok _ => exact Moves.bind hsent fun _ => Moves.pure _
  | error _ => exact Moves.bind hrefused fun _ => Moves.pure _

theorem moves_sendControl {msg : ControlMessage}
    (hsend : ∀ payload, Moves D P (trySend env 0 payload)) : Moves D P (sendControl env msg) := by
  unfold sendControl
  split
  · exact Moves.bind (hsend _) fun _ => Moves.pure _
  · exact Moves.pure _

theorem moves_usePort {port : PortId} {send : UInt16 → Token → Loop H Unit}
    (hports : ∀ (core : LooperCore H) ports, D core { core with ports })
    (hsend : ∀ s t, Moves D P (send s t)) : Moves D P (usePort port send) := by
  refine Moves.bind (Moves.gets _) fun found => ?_
  cases found with
  | none => exact Moves.pure _
  | some p => exact Moves.bind (Moves.modify fun core => hports core _) fun _ => hsend p.1 p.2

theorem moves_perform [Std.Refl P]
    (hsend : ∀ service payload, Moves D P (trySend env service payload))
    (hports : ∀ (core : LooperCore H) ports, D core { core with ports })
    (hanswered : ∀ port value, Moves D P (log (H := H) (.portAnswered port value)))
    (hlost : ∀ sessionId token, Moves D P (log (H := H) (.replyLost sessionId token)))
    (hclaim : ∀ sessionId, Moves D P (subscriberSender (H := H) call sessionId)) (effect : Effect) :
    Moves D P (perform env call effect) := by
  have hframe (sessionId : UInt16) (frame : ServiceFrame) :
      Moves D P (sendFrame env sessionId frame) := moves_sendFrame (hsend sessionId)
  have hcontrol (msg : ControlMessage) : Moves D P (sendControl env msg) :=
    moves_sendControl (hsend 0)
  cases effect with
  | sendNotification handle msg =>
    cases msg with
    | none => exact Moves.unwind
    | some msg => exact hframe _ _
  | dropHandle handle => exact Moves.bind (hcontrol _) fun _ => Moves.pure _
  | cancel token => exact Moves.bind (hcontrol _) fun _ => Moves.pure _
  | reply port value =>
    refine Moves.bind (moves_usePort hports fun s t => ?_) fun _ => Moves.pure _
    cases value with
    | none => exact Moves.bind (hlost s t) fun _ => Moves.unwind
    | some v =>
      refine Moves.bind (hanswered port v) fun _ => ?_
      exact Moves.bind (hframe _ _) fun _ => Moves.pure _
  | dropPort port =>
    refine Moves.bind (moves_usePort hports fun s t => ?_) fun _ => Moves.pure _
    exact Moves.bind (hframe _ _) fun _ => Moves.pure _
  | subscriberSender sessionId => exact Moves.bind (hclaim sessionId) fun _ => Moves.pure _

end Rules

theorem still_trySend (service : UInt16) (payload : Bytes) :
    Moves Still (Quiet call) (trySend env service payload) :=
  moves_trySend (still_log rfl) (still_log rfl)

theorem still_sendControl (msg : ControlMessage) :
    Moves Still (Quiet call) (sendControl env msg) :=
  moves_sendControl (still_trySend env 0)

theorem still_subscriberSender (sessionId : UInt16) :
    Moves Still (Quiet call) (subscriberSender (H := H) call sessionId) := by
  intro core
  by_cases hp : core.poisoned
  · simp only [Ends, subscriberSender, Code.bind_apply, Code.gets_apply, hp, ↓reduceIte,
      Code.unwind_apply]
    exact Std.Refl.refl core
  · by_cases hs : sessionId ∈ core.subscriberEnqueues
    · simp only [Ends, subscriberSender, Code.bind_apply, Code.gets_apply, hp, hs, decide_true,
        ↓reduceIte, Bool.false_eq_true, Code.modify_apply]
      exact .silent ⟨rfl, rfl, rfl, rfl, rfl, rfl⟩ rfl (by simpa using hp)
    · simp only [Ends, subscriberSender, Code.bind_apply, Code.gets_apply, hp, hs, decide_false,
        ↓reduceIte, Bool.false_eq_true, Code.modify_apply, Code.unwind_apply]
      exact ⟨⟨rfl, rfl, rfl, rfl, rfl, rfl⟩, [.unclaimable call sessionId], rfl, by simp [isMinor],
        .inr ⟨sessionId, List.mem_singleton_self _⟩⟩

theorem still_perform (effect : Effect) : Moves Still (Quiet call) (perform env call effect) :=
  moves_perform (still_trySend env) (fun _ _ => .silent ⟨rfl, rfl, rfl, rfl, rfl, rfl⟩ rfl rfl)
    (fun _ _ => still_log rfl) (fun _ _ => still_log rfl) still_subscriberSender effect

theorem moves_runScript {E : Type} {D P : LooperCore H → LooperCore H → Prop} [Std.Refl P]
    [Trans D D D] [Trans D P P] {perform : E → Loop H (Except Backpressure Unit)}
    (hhandler : ∀ (core : LooperCore H) handler, D core { core with handler })
    (hperform : ∀ effect, Moves D P (perform effect)) (script : Script E H) :
    Moves D P (runScript perform script) := by
  induction script with
  | ret handler flow =>
    intro core
    exact hhandler core handler
  | panic handler =>
    exact Moves.bind (Moves.modify fun core => hhandler core handler) fun _ => Moves.unwind
  | act handler effect next ih =>
    refine Moves.bind (Moves.modify fun core => hhandler core handler) fun _ => ?_
    exact Moves.bind (hperform effect) ih

def Entered (call : Call) (core core' : LooperCore H) : Prop := Still (core.log (.called call)) core'

def Broke (call : Call) (core core' : LooperCore H) : Prop :=
  ∃ core₁, Quiet call (core.log (.called call)) core₁ ∧
    core' = core₁.log (.panicked call core₁.outstanding)

theorem Still.note {core' : LooperCore H} (h : Still core core') (n : Note) :
    Still core (core'.note n) :=
  IsTrans.trans _ _ _ h (.silent ⟨rfl, rfl, rfl, rfl, rfl, rfl⟩ rfl rfl)

theorem ends_enter {E : Type} {perform : E → Loop H (Except Backpressure Unit)}
    {code : H → Script E H} {Q : Outcome Flow → LooperCore H → Prop}
    (h : Ends (runScript perform (code core.handler)) (core.log (.called call)) fun o core' =>
      match o with
      | .done flow => Q (.done flow) (core'.note (.returned call flow))
      | .panicked => Q .panicked (core'.log (.panicked call core'.outstanding))) :
    Ends (enter perform call code) core Q := by
  apply Ends.bind
  apply Ends.bind
  apply Ends.bind
  apply Ends.catchUnwind
  apply h.mono
  intro o core' ho
  cases o with
  | done flow => exact ho
  | panicked => exact ho

theorem moves_enter {E : Type} {D : LooperCore H → LooperCore H → Prop} [Std.Refl D] [Trans D D D]
    {perform : E → Loop H (Except Backpressure Unit)}
    (hcalled : ∀ core, D core (core.log (.called call)))
    (hhandler : ∀ (core : LooperCore H) handler, D core { core with handler })
    (hperform : ∀ effect, Moves D D (perform effect))
    (hreturned : ∀ core flow, D core (core.note (.returned call flow)))
    (hpanicked : ∀ core, D core (core.log (.panicked call core.outstanding)))
    (code : H → Script E H) : Moves D D (enter perform call code) := by
  apply Moves.of_always
  intro core
  apply ends_enter
  apply ((moves_runScript hhandler hperform (code core.handler)).after (hcalled core)).mono
  intro o core' ho
  cases o with
  | done flow =>
    have hend : D core (core'.note (.returned call flow)) := Trans.trans ho (hreturned core' flow)
    exact hend
  | panicked =>
    have hend : D core (core'.log (.panicked call core'.outstanding)) :=
      Trans.trans ho (hpanicked core')
    exact hend

theorem moves_invoke (call : Call) (code : H → Callback H) :
    Moves (Entered call) (Broke call) (invoke env call code) := by
  intro core
  apply ends_enter
  have hrun := moves_runScript (D := Still) (P := Quiet call)
    (fun core handler => .silent ⟨rfl, rfl, rfl, rfl, rfl, rfl⟩ rfl rfl)
    (fun effect => still_perform env effect) (code core.handler) (core.log (.called call))
  apply hrun.mono
  intro o core' ho
  cases o with
  | done flow => exact ho.note _
  | panicked => exact ⟨core', ho, rfl⟩

end Pane.CallbackEffects
