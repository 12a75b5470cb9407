import Pane.EventFilters

namespace Pane.VisibleEvents

open Pane.HashTable Pane.Messages Pane.Correlator Pane.Callbacks Pane.Unwinding Pane.LooperState
open Pane.CoreDispatch Pane.CoreRequest Pane.Looper Pane.CoreRuns Pane.CoreMoves
open Pane.ContextEffects Pane.EventFilters

variable {H : Type} (env : Env H) {core core' : LooperCore H} {call : Call}

def isVisible : Event → Bool
  | .handed .. => true
  | .called .disconnected => true
  | .called (.subscriberConnected _) => true
  | .called (.subscriberDisconnected ..) => true
  | _ => false

def isReport : Event → Bool
  | .called (.subscriberConnected _) => true
  | .called (.subscriberDisconnected ..) => true
  | _ => false

def Adds (seen : List Event) (core core' : LooperCore H) : Prop :=
  ∃ es, core'.trace = core.trace ++ es ∧ es.filter isVisible = seen

abbrev Hidden (core core' : LooperCore H) : Prop := Adds [] core core'

theorem Adds.trans {seen seen' : List Event} {core'' : LooperCore H} (h : Adds seen core core')
    (h' : Adds seen' core' core'') : Adds (seen ++ seen') core core'' := by
  obtain ⟨es, htrace, rfl⟩ := h
  obtain ⟨es', htrace', rfl⟩ := h'
  exact ⟨es ++ es', by rw [htrace', htrace, List.append_assoc], List.filter_append ..⟩

theorem Adds.filterMap {α : Type} {f : Event → Option α}
    (hf : ∀ e, isVisible e = false → f e = none)
    {seen : List Event} (h : Adds seen core core') :
    core'.trace.filterMap f = core.trace.filterMap f ++ seen.filterMap f := by
  obtain ⟨es, htrace, rfl⟩ := h
  rw [htrace, List.filterMap_append, List.filterMap_filter]
  congr 1
  apply List.filterMap_congr
  intro e _
  cases hv : isVisible e with
  | true => simp
  | false => simp [hf e hv]

instance : Std.Refl (Hidden (H := H)) := ⟨fun _ => ⟨[], by simp⟩⟩

instance : Trans (Hidden (H := H)) Hidden Hidden := ⟨fun h h' => h.trans h'⟩

theorem hidden_of_trace_eq (h : core'.trace = core.trace) : Hidden core core' :=
  ⟨[], by simp [h]⟩

theorem admits_hidden : Admits (fun e => isVisible e = false) fun _ => True where
  work e he := by cases e <;> simp_all [isWork, isVisible]
  panicked _ _ := rfl
  onFailed _ := rfl
  notes _ _ := trivial

theorem hidden_of_only (h : Shows (fun e => isVisible e = false) core core') :
    Hidden core core' := by
  obtain ⟨es, htrace, hes⟩ := h.trace
  exact ⟨es, htrace, List.filter_eq_nil_iff.mpr fun e he => by simp [hes e he]⟩

theorem hidden_moves {α : Type} {m : Loop H α} (h : Moves (Shows fun e => isVisible e = false)
    (Shows fun e => isVisible e = false) m) : Moves Hidden Hidden m :=
  h.mono (fun _ _ => hidden_of_only) fun _ _ => hidden_of_only

theorem hidden_works {α : Type} {m : Loop H α} (h : Moves Works Works m) : Moves Hidden Hidden m :=
  hidden_moves (only_works admits_hidden h)

theorem adds_log (e : Event) (core : LooperCore H) :
    Adds ([e].filter isVisible) core (core.log e) :=
  ⟨[e], rfl, rfl⟩

theorem adds_invoke (call : Call) (code : H → Callback H) (core : LooperCore H) :
    Ends (invoke env call code) core fun _ core' =>
      Adds ([.called call].filter isVisible) core core' := by
  apply (ends_entered (works_perform env) code core).mono
  rintro o core' ⟨core₁, hworks, ho⟩
  have hworked : Hidden (core.log (.called call)) core₁ :=
    hidden_of_only (only_of_works admits_hidden (fun _ => trivial) hworks)
  have hadds := (adds_log (.called call) core).trans hworked
  rw [List.append_nil] at hadds
  cases o with
  | done flow => exact ho ▸ hadds
  | panicked =>
    have hlog : Hidden core₁ (core₁.log (.panicked call core₁.outstanding)) := ⟨_, rfl, rfl⟩
    have hpanicked := hadds.trans hlog
    rw [List.append_nil] at hpanicked
    exact ho ▸ hpanicked

theorem hidden_cascade
    (failure : TokenOrder → ActiveSession → List (PeerScope × Token) × ActiveSession) :
    Moves Hidden Hidden (cascade env failure) :=
  hidden_moves (only_cascade env admits_hidden failure)

theorem hidden_runDestruction (reason : ExitReason) :
    Moves Hidden Hidden (runDestruction env reason) :=
  hidden_moves (only_runDestruction env admits_hidden reason)

theorem hidden_flowToOutcome (flow : Flow) : Moves Hidden Hidden (flowToOutcome env flow) :=
  hidden_moves (only_flowToOutcome env admits_hidden flow)

theorem hidden_failed : Moves Hidden Hidden (failed env) :=
  hidden_moves (only_failed env admits_hidden)

theorem hidden_trySend (service : UInt16) (payload : Bytes) :
    Moves Hidden Hidden (trySend env service payload) :=
  hidden_works (works_trySend env service payload)

theorem hidden_sendControl (msg : ControlMessage) : Moves Hidden Hidden (sendControl env msg) :=
  hidden_works (works_sendControl env msg)

theorem hidden_processSyncRequest (req : SyncRequest) :
    Moves Hidden Hidden (processSyncRequest env req) :=
  hidden_works (works_processSyncRequest env req)

theorem hidden_lockEnqueues (f : HashSet UInt16 → HashSet UInt16) :
    Moves (Hidden (H := H)) Hidden (lockEnqueues f) :=
  hidden_works (works_lockEnqueues f)

theorem hidden_dispatchResolution (token : Token) (hcall : isVisible (.called call) = false)
    (code : DispatchEntry H → H → Callback H) {event : Event} (hevent : isWork event) :
    Moves Hidden Hidden (dispatchResolution env token (fire env token call code event)) :=
  hidden_moves (only_dispatchResolution env admits_hidden token
    (only_fire env admits_hidden token hcall code hevent))

theorem hidden_dispatch (hcall : isVisible (.called call) = false) (callback : H → Callback H) :
    Moves Hidden Hidden (dispatch env call callback) :=
  hidden_moves (only_dispatch env admits_hidden hcall callback)

theorem adds_dispatch (call : Call) (callback : H → Callback H) (core : LooperCore H) :
    Ends (dispatch env call callback) core fun o core' =>
      Adds ([.called call].filter isVisible) core core' ∨ o ≠ .done .cont ∧ Hidden core core' := by
  refine Ends.gets ?_
  split
  · exact .inr ⟨nofun, Std.Refl.refl (r := Hidden) core⟩
  · apply Ends.bind
    apply Ends.catchUnwind
    apply (adds_invoke env call callback core).mono
    intro o core₁ ho
    cases o with
    | panicked =>
      apply ((hidden_failed env).always core₁).mono
      intro _ core₂ hfailed
      exact .inl (by simpa using ho.trans hfailed)
    | done flow =>
      apply ((hidden_flowToOutcome env flow).always core₁).mono
      intro _ core₂ hflow
      exact .inl (by simpa using ho.trans hflow)

def Parting (core core' : LooperCore H) : Prop :=
  Hidden core core' ∨ Adds [.called .disconnected] core core'

theorem Parting.trans {core'' : LooperCore H} (h : Parting core core') (h' : Hidden core' core'') :
    Parting core core'' := by
  obtain h | h := h
  · exact .inl (h.trans h')
  · exact .inr (by simpa using h.trans h')

theorem parting_channelClosed (core : LooperCore H) :
    Ends (channelClosed env) core fun _ core' => Parting core core' := by
  have hlost : Ends (connectionLost env) core fun _ core' => Parting core core' := by
    have hdispatch : Ends (dispatch env .disconnected env.handler.disconnected) core
        fun _ core' => Parting core core' :=
      (adds_dispatch env .disconnected env.handler.disconnected core).mono
        fun _ _ h => h.symm.imp And.right id
    refine Ends.seq hdispatch ?_ fun _ h => h
    intro outcome core₁ h
    split
    · exact Ends.modify (Ends.pure (h.trans (hidden_of_trace_eq rfl)))
    · exact Ends.pure h
  refine Ends.seq hlost ?_ fun _ h => h
  intro outcome core₁ h
  cases outcome with
  | exit reason => exact Ends.pure h
  | cont =>
    refine Ends.seq ((hidden_runDestruction env _).always core₁) ?_ fun _ h' => h.trans h'
    exact fun _ _ h' => Ends.pure (h.trans h')

section Reports

def Reporting (core core' : LooperCore H) : Prop :=
  ∃ part, Adds part core core' ∧ ∀ e ∈ part, isReport e

instance : Std.Refl (Reporting (H := H)) :=
  ⟨fun core => ⟨[], Std.Refl.refl (r := Hidden) core, by simp⟩⟩

instance : Trans (Reporting (H := H)) Reporting Reporting where
  trans := by
    rintro core core' core'' ⟨part, hadds, hpart⟩ ⟨part', hadds', hpart'⟩
    refine ⟨part ++ part', hadds.trans hadds', ?_⟩
    simpa [or_imp, forall_and] using ⟨hpart, hpart'⟩

theorem reporting_of_hidden {α : Type} {m : Loop H α} (h : Moves Hidden Hidden m) :
    Moves Reporting Reporting m :=
  h.mono (fun _ _ hidden => ⟨[], hidden, by simp⟩) fun _ _ hidden => ⟨[], hidden, by simp⟩

theorem reporting_dispatch {call : Call} (callback : H → Callback H)
    (hcall : call ≠ .disconnected) : Moves Reporting Reporting (dispatch env call callback) := by
  have hreport : ∀ e ∈ [.called call].filter isVisible, isReport e := by
    cases call <;> simp_all [isVisible, isReport]
  intro core
  apply (adds_dispatch env call callback core).mono
  intro o core' h
  have hreporting : Reporting core core' := by
    obtain h | ⟨-, h⟩ := h
    · exact ⟨_, h, hreport⟩
    · exact ⟨[], h, by simp⟩
  cases o with
  | done _ => exact hreporting
  | panicked => exact hreporting

end Reports

def GoesOn {α : Type} (m : Loop H α) (result : α) (seen : List Event) : Prop :=
  ∀ core, Ends m core fun o core' => o = .done result → Adds seen core core'

theorem goesOn_of_hidden {α : Type} {m : Loop H α} (h : Moves Hidden Hidden m) (result : α) :
    GoesOn m result [] := fun core => (h.always core).mono fun _ _ hidden _ => hidden

theorem goesOn_dispatch (call : Call) (callback : H → Callback H) :
    GoesOn (dispatch env call callback) .cont ([.called call].filter isVisible) := by
  intro core
  apply (adds_dispatch env call callback core).mono
  rintro o core' (h | ⟨hne, -⟩) hcont
  · exact h
  · exact absurd hcont hne

theorem adds_handed (sessionId : UInt16) (frame : ServiceFrame) {code : Loop H DispatchOutcome}
    (hcode : Moves Hidden Hidden code) :
    Moves (Adds [.handed sessionId frame]) (Adds [.handed sessionId frame])
      (do log (.handed sessionId frame); code) := by
  intro core
  apply Ends.modify
  apply (hcode.always _).mono
  intro o core' ho
  have hadds := (adds_log (.handed sessionId frame) core).trans ho
  cases o with
  | done _ => exact hadds
  | panicked => exact hadds

theorem adds_dispatchNotification (sessionId : UInt16) (inner : Bytes) :
    Moves (Adds [.handed sessionId (.notification inner)])
      (Adds [.handed sessionId (.notification inner)])
      (dispatchNotification env sessionId inner) := by
  apply adds_handed
  split
  · exact Moves.pure _
  · exact hidden_moves (moves_guarded (only_runDestruction env admits_hidden)
      (only_invoke env admits_hidden rfl _))

theorem adds_dispatchRequestWithContext (direct : Bool) (sessionId : UInt16) (token : Token)
    (inner : Bytes) :
    Moves (Adds [.handed sessionId (.request token inner)])
      (Adds [.handed sessionId (.request token inner)])
      (dispatchRequestWithContext env direct sessionId token inner) := by
  apply adds_handed
  exact hidden_moves (moves_guarded (only_runDestruction env admits_hidden)
    (only_serveRequest env admits_hidden direct rfl fun _ => trivial))

theorem goesOn_tearDown (sessionId : UInt16) (reason : TeardownReason) :
    GoesOn (tearDown env sessionId reason) .cont
      [.called (.subscriberDisconnected sessionId reason)] := by
  intro core
  refine Ends.seq ((hidden_cascade env _).always core) ?_ fun _ _ h => by cases h
  intro _ core₁ h₁
  apply (goesOn_dispatch env (.subscriberDisconnected sessionId reason)
    (env.handler.subscriberDisconnected sessionId reason) core₁).mono
  exact fun _ _ h₂ hcont => h₁.trans (h₂ hcont)

theorem goesOn_connectSubscriber (sessionId : UInt16) :
    GoesOn (connectSubscriber env sessionId) .cont [.called (.subscriberConnected sessionId)] := by
  intro core
  refine Ends.seq ((hidden_lockEnqueues _).always core) ?_ fun _ _ h => by cases h
  intro _ core₁ h₁
  refine Ends.seq (goesOn_dispatch env (.subscriberConnected sessionId)
    (env.handler.subscriberConnected sessionId) core₁) ?_ fun _ _ h => by cases h
  intro outcome core₂ h₂
  refine Ends.seq ((hidden_lockEnqueues _).always core₂) ?_ fun _ _ h => by cases h
  intro _ core₃ h₃
  exact Ends.pure fun hcont => (h₁.trans (h₂ hcont)).trans h₃

theorem reporting_tearDown (sessionId : UInt16) (reason : TeardownReason) :
    Moves Reporting Reporting (tearDown env sessionId reason) :=
  Moves.bind (reporting_of_hidden (hidden_cascade env _)) fun _ =>
    reporting_dispatch env (env.handler.subscriberDisconnected sessionId reason) (by simp)

theorem reporting_connectSubscriber (sessionId : UInt16) :
    Moves Reporting Reporting (connectSubscriber env sessionId) := by
  refine Moves.bind (reporting_of_hidden (hidden_lockEnqueues _)) fun _ => ?_
  refine Moves.bind (reporting_dispatch env (env.handler.subscriberConnected sessionId) (by simp))
    fun _ => ?_
  exact Moves.bind (reporting_of_hidden (hidden_lockEnqueues _)) fun _ => Moves.pure _

end Pane.VisibleEvents
