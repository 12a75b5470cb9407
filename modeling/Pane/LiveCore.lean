import Pane.Destruction

namespace Pane.LiveCore

open Pane.HashTable Pane.Messages Pane.Correlator Pane.Callbacks Pane.Unwinding Pane.LooperState
open Pane.CallbackEffects Pane.CoreDispatch Pane.RequestLedger Pane.Cascades Pane.Destruction

variable {H : Type} (env : Env H) {core core' : LooperCore H} {call : Call} {t : Token}

/-- A looper between two messages. -/
structure Live (core : LooperCore H) : Prop where
  books : Books none core
  exited : core.exited = false
  exitTx : core.exitTx = []
  poisoned : core.poisoned = false
  noPanic : ∀ call p, Event.panicked call p ∉ core.trace

/-- A looper whose user code has panicked. Only a failed `subscriber_sender` of
that code can have poisoned the map of subscribers. -/
structure Shaken (call : Call) (firing : Option Token) (core : LooperCore H) : Prop where
  books : Books firing core
  exited : core.exited = false
  exitTx : core.exitTx = []
  poisoned : core.poisoned = false ∨ ∃ s, Event.unclaimable call s ∈ core.trace
  noPanic : ∀ call p, Event.panicked call p ∉ core.trace

def token : Call → Option Token
  | .onReply t _ => some t
  | .onFailed t => some t
  | _ => none

/-- A panic makes the looper fail, and the other requests that were outstanding
are failed after it. -/
def Contained (reason : ExitReason) (trace : List Event) : Prop :=
  ∀ pre call outstanding post, trace = pre ++ .panicked call outstanding :: post →
    reason = .failed ∧
      ∀ t ∈ outstanding, token call ≠ some t → Event.called (.onFailed t) ∈ post

structure Over (reason : ExitReason) (core : LooperCore H) : Prop where
  ledger : Ledger core
  entries : core.dispatch.entries = ∅
  asyncEntries : core.dispatch.asyncEntries = ∅
  sent : reason ∈ core.exitTx
  contained : Contained reason core.trace

/-- A panic that leaves `run`: out of a cascade, or from the poisoned map of
subscribers when the destruction is already over. -/
def Escaped (core : LooperCore H) : Prop :=
  CascadeBroke env core ∨
    (∃ reason, Over reason core) ∧ ∃ s s', Event.unclaimable (.subscriberConnected s) s' ∈ core.trace

def Post (o : Outcome DispatchOutcome) (core : LooperCore H) : Prop :=
  match o with
  | .done .cont => Live core
  | .done (.exit reason) => Over reason core
  | .panicked => Escaped env core

def PostOf (call : Call) (o : Outcome DispatchOutcome) (core : LooperCore H) : Prop :=
  match o with
  | .done .cont => Live core
  | .done (.exit reason) => Over reason core ∧
      (core.poisoned = false ∨ ∃ s, Event.unclaimable call s ∈ core.trace)
  | .panicked => CascadeBroke env core

theorem PostOf.post {o : Outcome DispatchOutcome} (h : PostOf env call o core) :
    Post env o core := by
  cases o with
  | panicked => exact .inl h
  | done outcome =>
    cases outcome with
    | cont => exact h
    | exit reason => exact h.1

theorem contained_of_noPanic {reason : ExitReason} {trace : List Event}
    (h : ∀ call p, Event.panicked call p ∉ trace) : Contained reason trace := by
  intro pre call outstanding post htrace
  exact absurd (htrace ▸ List.mem_append_right pre List.mem_cons_self) (h call outstanding)

theorem over_of_destroyed {reason : ExitReason} (hlive : Live core)
    (h : Destroyed reason core core') : Over reason core' := by
  obtain ⟨es, htrace, -, hno⟩ := h.trace
  refine ⟨h.ledger, h.entries, h.asyncEntries, by simp [h.exitTx], contained_of_noPanic ?_⟩
  intro call p hmem
  rw [htrace] at hmem
  obtain hmem | hmem := List.mem_append.mp hmem
  · exact hlive.noPanic call p hmem
  · exact hno call p hmem

theorem post_runDestruction (hlive : Live core) (reason : ExitReason) :
    Ends (runDestruction env reason) core fun o core' =>
      match o with
      | .done _ => Over reason core' ∧ core'.poisoned = false
      | .panicked => CascadeBroke env core' := by
  apply (destroyed_runDestruction env hlive.books reason).mono
  intro o core' ho
  cases o with
  | done _ => exact ⟨over_of_destroyed hlive ho, ho.poisoned.trans hlive.poisoned⟩
  | panicked => exact ho

theorem post_flowToOutcome (hlive : Live core) (flow : Flow) :
    Ends (flowToOutcome env flow) core (PostOf env call) := by
  cases flow with
  | cont => exact hlive
  | stop =>
    refine Ends.seq (post_runDestruction env hlive .graceful) ?_ fun _ hbroke => hbroke
    exact fun _ core' h => Ends.pure ⟨h.1, .inl h.2⟩

theorem pending_of_outstanding {firing : Option Token} (h : Books firing core)
    (ht : t ∈ core.outstanding) (hne : firing ≠ some t) : Pending core t := by
  obtain ⟨hkey, hasync⟩ := List.mem_filter.mp ht
  have hsome : (sessionOf core t).isSome := by
    rw [sessionOf, RequestCorrelator.sessionOf, AList.lookup_isSome]
    exact AList.mem_keys.mpr hkey
  obtain hp | ha | hf := (h.agree t).mp hsome
  · exact hp
  · exact absurd ha (by simpa [PendingAsync] using hasync)
  · exact absurd hf hne

theorem post_failed {firing : Option Token} (h : Shaken call firing core)
    (hfiring : ∀ t, firing = some t → token call = some t) :
    Ends (failed env) (core.log (.panicked call core.outstanding)) (PostOf env call) := by
  have hbooks : Books firing (core.log (.panicked call core.outstanding)) :=
    h.books.neutral ⟨rfl, rfl, rfl, rfl, rfl, rfl⟩ rfl (by simp [isNeutral])
  refine Ends.seq (destroyed_runDestruction env hbooks .failed) ?_ fun _ hbroke => hbroke
  intro _ core' hd
  obtain ⟨es, htrace, hcalled, hno⟩ := hd.trace
  have htrace' : core'.trace = core.trace ++ .panicked call core.outstanding :: es := by
    rw [htrace, LooperCore.log, List.append_assoc]
    rfl
  refine Ends.pure ⟨⟨hd.ledger, hd.entries, hd.asyncEntries, by simp [hd.exitTx], ?_⟩, ?_⟩
  · intro pre call' outstanding post heq
    rw [htrace', List.append_cons_inj_of_notMem (h.noPanic _ _) (hno _ _)] at heq
    obtain ⟨-, hevent, rfl⟩ := heq
    obtain ⟨rfl, rfl⟩ := Event.panicked.inj hevent
    refine ⟨rfl, fun t ht hne => hcalled t ?_⟩
    exact pending_of_outstanding hbooks ht fun hf => hne (hfiring t hf)
  · obtain hp | ⟨s, hs⟩ := h.poisoned
    · exact .inl (hd.poisoned.trans hp)
    · exact .inr ⟨s, by rw [htrace']; exact List.mem_append_left _ hs⟩

theorem post_failed_unlogged {firing : Option Token} (h : Shaken call firing core) :
    Ends (failed env) core (Post env) := by
  refine Ends.seq (destroyed_runDestruction env h.books .failed) ?_ fun _ hbroke => .inl hbroke
  intro _ core' hd
  obtain ⟨es, htrace, -, hno⟩ := hd.trace
  refine Ends.pure ⟨hd.ledger, hd.entries, hd.asyncEntries, by simp [hd.exitTx], ?_⟩
  apply contained_of_noPanic
  intro call p hmem
  rw [htrace] at hmem
  obtain hmem | hmem := List.mem_append.mp hmem
  · exact h.noPanic call p hmem
  · exact hno call p hmem

def Keeps (core core' : LooperCore H) : Prop := Live core → Live core'

def Shakes (call : Call) (core core' : LooperCore H) : Prop := Live core → Shaken call none core'

theorem Live.shaken (h : Live core) : Shaken call none core :=
  ⟨h.books, h.exited, h.exitTx, .inl h.poisoned, h.noPanic⟩

instance : Std.Refl (Keeps (H := H)) := ⟨fun _ h => h⟩

instance : Std.Refl (Shakes (H := H) call) := ⟨fun _ h => h.shaken⟩

instance : IsTrans (LooperCore H) Keeps := ⟨fun _ _ _ h h' hlive => h' (h hlive)⟩

instance : Trans (Keeps (H := H)) (Shakes call) (Shakes call) := ⟨fun h h' hlive => h' (h hlive)⟩

theorem noPanic_append {es : List Event} (h : ∀ call p, Event.panicked call p ∉ core.trace)
    (hes : ∀ call p, Event.panicked call p ∉ es) (htrace : core'.trace = core.trace ++ es) :
    ∀ call p, Event.panicked call p ∉ core'.trace := by
  intro call p hmem
  rw [htrace] at hmem
  obtain hmem | hmem := List.mem_append.mp hmem
  · exact h call p hmem
  · exact hes call p hmem

theorem minor_noPanic {es : List Event} (h : ∀ e ∈ es, isMinor e) :
    ∀ call p, Event.panicked call p ∉ es :=
  fun call p hmem => by simpa [isMinor] using h _ hmem

theorem Live.neutral {es : List Event} (h : Live core) (hs : Stays core core')
    (hpoisoned : core'.poisoned = core.poisoned) (htrace : core'.trace = core.trace ++ es)
    (hes : ∀ e ∈ es, isNeutral e) (hno : ∀ call p, Event.panicked call p ∉ es) : Live core' :=
  ⟨h.books.neutral hs htrace hes, hs.exited.trans h.exited, hs.exitTx.trans h.exitTx,
    hpoisoned.trans h.poisoned, noPanic_append h.noPanic hno htrace⟩

theorem keeps_of_still (h : Still core core') : Keeps core core' := by
  intro hlive
  obtain ⟨hstays, hpoisoned, es, htrace, hminor⟩ := h
  exact hlive.neutral hstays hpoisoned htrace (fun e he => isNeutral_of_isMinor (hminor e he))
    (minor_noPanic hminor)

theorem shakes_of_quiet (h : Quiet call core core') : Shakes call core core' := by
  intro hlive
  obtain ⟨hstays, es, htrace, hminor, hpoisoned⟩ := h
  refine ⟨hlive.books.neutral hstays htrace fun e he => isNeutral_of_isMinor (hminor e he),
    hstays.exited.trans hlive.exited, hstays.exitTx.trans hlive.exitTx, ?_,
    noPanic_append hlive.noPanic (minor_noPanic hminor) htrace⟩
  obtain heq | ⟨s, hs⟩ := hpoisoned
  · exact .inl (heq.trans hlive.poisoned)
  · exact .inr ⟨s, htrace ▸ List.mem_append_right _ hs⟩

theorem keeps_perform (effect : Effect) : Moves Keeps (Shakes call) (perform env call effect) :=
  (still_perform env effect).mono (fun _ _ => keeps_of_still) fun _ _ => shakes_of_quiet

theorem live_enter {E : Type} {perform : E → Loop H (Except Backpressure Unit)}
    {code : H → Script E H} (hcall : token call = none)
    (hperform : ∀ effect, Moves Keeps (Shakes call) (perform effect)) (hlive : Live core) :
    Ends (enter perform call code) core fun o core' =>
      match o with
      | .done _ => Live core'
      | .panicked => ∃ core₁, Shaken call none core₁ ∧
          core' = core₁.log (.panicked call core₁.outstanding) := by
  have hstart : Live (core.log (.called call)) := by
    refine hlive.neutral ⟨rfl, rfl, rfl, rfl, rfl, rfl⟩ rfl rfl ?_ (by simp)
    cases call <;> simp_all [token, isNeutral]
  have hrun := moves_runScript (D := Keeps) (P := Shakes call)
    (fun core handler => keeps_of_still (.silent ⟨rfl, rfl, rfl, rfl, rfl, rfl⟩ rfl rfl))
    hperform (code core.handler) (core.log (.called call))
  apply ends_enter
  apply hrun.mono
  intro o core₁ ho
  cases o with
  | done flow => exact keeps_of_still (Still.note (Std.Refl.refl core₁) _) (ho hstart)
  | panicked => exact ⟨core₁, ho hstart, rfl⟩

theorem post_guarded {enter : Loop H Flow} (h : Ends enter core fun o core' =>
      match o with
      | .done _ => Live core'
      | .panicked => ∃ core₁, Shaken call none core₁ ∧
          core' = core₁.log (.panicked call core₁.outstanding)) :
    Ends (do
      match ← enter.catchUnwind with
      | some flow => flowToOutcome env flow
      | none => failed env) core (PostOf env call) := by
  apply Ends.bind
  apply Ends.catchUnwind
  apply h.mono
  intro o core₁ ho
  cases o with
  | done flow => exact post_flowToOutcome env ho flow
  | panicked =>
    obtain ⟨core₂, hshaken, rfl⟩ := ho
    exact post_failed env hshaken (by simp)

theorem post_dispatch (callback : H → Callback H) (hcall : token call = none) (hlive : Live core) :
    Ends (dispatch env call callback) core (PostOf env call) := by
  apply Ends.gets
  rw [hlive.exited]
  exact post_guarded env (live_enter hcall (keeps_perform env) hlive)

end Pane.LiveCore
