import Pane.VisibleEvents

namespace Pane.BatchPhases

open Pane.HashTable Pane.Messages Pane.Correlator Pane.Callbacks Pane.Unwinding Pane.LooperState
open Pane.CoreDispatch Pane.CoreRequest Pane.Looper Pane.CoreRuns Pane.VisibleEvents

variable {H : Type} (env : Env H) {core : LooperCore H}

section Collect

def teardownOf : Input → Option (UInt16 × TeardownReason)
  | .message (.control (.serviceTeardown sessionId reason)) => some (sessionId, reason)
  | _ => none

def acceptedOf : Input → Option UInt16
  | .message (.control (.interestAccepted _ sessionId _)) => some sessionId
  | _ => none

def requestOf (pc : Postcard) : Input → Option (UInt16 × Token × Bytes)
  | .message (.service sessionId payload) =>
    match pc.frameFromBytes payload with
    | some (.request token inner) => some (sessionId, token, inner)
    | _ => none
  | _ => none

def notificationOf (pc : Postcard) : Input → Option (UInt16 × Bytes)
  | .message (.service sessionId payload) =>
    match pc.frameFromBytes payload with
    | some (.notification inner) => some (sessionId, inner)
    | _ => none
  | _ => none

structure Collected (pc : Postcard) (inputs : List Input) (b b' : Batch) : Prop where
  teardowns : b'.teardowns = b.teardowns ++ inputs.filterMap teardownOf
  subscriberConnected : b'.subscriberConnected = b.subscriberConnected ++ inputs.filterMap acceptedOf
  requests : b'.requests = b.requests ++ inputs.filterMap (requestOf pc)
  notifications : b'.notifications = b.notifications ++ inputs.filterMap (notificationOf pc)

theorem collected_collectFrame (pc : Postcard) (b : Batch) (sessionId : UInt16) (payload : Bytes) :
    Collected pc [.message (.service sessionId payload)] b
      (b.collect pc (.service sessionId payload)) := by
  simp only [Batch.collect]
  cases hframe : pc.frameFromBytes payload with
  | none => constructor <;> simp [teardownOf, acceptedOf, requestOf, notificationOf, hframe]
  | some frame =>
    cases frame <;> constructor <;>
      simp [Batch.collectFrame, teardownOf, acceptedOf, requestOf, notificationOf, hframe]

theorem collected_collectInput (pc : Postcard) (b : Batch) (input : Input) :
    Collected pc [input] b (collectInput pc b input) := by
  cases input with
  | sync req => constructor <;> simp [collectInput, teardownOf, acceptedOf, requestOf, notificationOf]
  | pulse => constructor <;> simp [collectInput, teardownOf, acceptedOf, requestOf, notificationOf]
  | closed => constructor <;> simp [collectInput, teardownOf, acceptedOf, requestOf, notificationOf]
  | message msg =>
    cases msg with
    | service sessionId payload => exact collected_collectFrame pc b sessionId payload
    | newConnection registers =>
      constructor <;>
        simp [collectInput, Batch.collect, teardownOf, acceptedOf, requestOf, notificationOf]
    | localRevoke sessionId =>
      simp only [collectInput, Batch.collect, Batch.collectRevoke]
      split <;> constructor <;> simp [teardownOf, acceptedOf, requestOf, notificationOf]
    | control msg =>
      cases msg <;> constructor <;>
        simp [collectInput, Batch.collect, teardownOf, acceptedOf, requestOf, notificationOf]

theorem collected_foldl (pc : Postcard) (inputs : List Input) (b : Batch) :
    Collected pc inputs b (inputs.foldl (collectInput pc) b) := by
  induction inputs generalizing b with
  | nil => constructor <;> simp
  | cons input inputs ih =>
    have hfirst := collected_collectInput pc b input
    have hrest := ih (collectInput pc b input)
    constructor
    · rw [List.foldl_cons, hrest.teardowns, hfirst.teardowns, List.append_assoc,
        ← List.filterMap_append, List.singleton_append]
    · rw [List.foldl_cons, hrest.subscriberConnected, hfirst.subscriberConnected,
        List.append_assoc, ← List.filterMap_append, List.singleton_append]
    · rw [List.foldl_cons, hrest.requests, hfirst.requests, List.append_assoc,
        ← List.filterMap_append, List.singleton_append]
    · rw [List.foldl_cons, hrest.notifications, hfirst.notifications, List.append_assoc,
        ← List.filterMap_append, List.singleton_append]

end Collect

section Unlost

def Unlost {α : Type} (exit : α → Option ExitReason) (m : Loop H α) : Prop :=
  ∀ core, Ends m core fun o _ => ∀ a, o = .done a → exit a ≠ some .disconnected

variable {α β : Type} {exit : β → Option ExitReason}

theorem Unlost.bind {m : Loop H α} {f : α → Loop H β} (hf : ∀ a, Unlost exit (f a)) :
    Unlost exit (m >>= f) := fun _ =>
  Ends.seq (R := fun _ _ => True) trivial (fun a core' _ => hf a core') fun _ _ _ h => by cases h

theorem Unlost.pure {b : β} (h : exit b ≠ some .disconnected) :
    Unlost exit (Pure.pure b : Loop H β) := by
  intro core a ha
  cases ha
  exact h

theorem unlost_failed : Unlost ofOutcome (failed env) :=
  Unlost.bind fun _ => Unlost.pure (by simp [ofOutcome])

theorem unlost_flowToOutcome (flow : Flow) : Unlost ofOutcome (flowToOutcome env flow) := by
  cases flow with
  | cont => exact Unlost.pure (by simp [ofOutcome])
  | stop => exact Unlost.bind fun _ => Unlost.pure (by simp [ofOutcome])

theorem unlost_guarded (m : Loop H Flow) :
    Unlost ofOutcome (do
      match ← Code.catchUnwind m with
      | some flow => flowToOutcome env flow
      | none => failed env) := by
  refine Unlost.bind fun result => ?_
  cases result with
  | none => exact unlost_failed env
  | some flow => exact unlost_flowToOutcome env flow

theorem unlost_dispatch (call : Call) (callback : H → Callback H) :
    Unlost ofOutcome (dispatch env call callback) := by
  refine Unlost.bind fun exited => ?_
  split
  · exact Unlost.pure (by simp [ofOutcome])
  · exact unlost_guarded env _

theorem unlost_dispatchResolution (token : Token) (fire : Loop H (Option Flow)) :
    Unlost ofOutcome (dispatchResolution env token fire) := by
  refine Unlost.bind fun result => ?_
  cases result with
  | none => exact unlost_failed env
  | some flow =>
    cases flow with
    | none => exact Unlost.pure (by simp [ofOutcome])
    | some flow => exact Unlost.bind fun _ => unlost_flowToOutcome env flow

theorem unlost_connectSubscriber (sessionId : UInt16) :
    Unlost ofOutcome (connectSubscriber env sessionId) := by
  refine Unlost.bind fun _ core => ?_
  refine Ends.seq (unlost_dispatch env _ _ core) ?_ fun _ _ _ h => by cases h
  intro outcome core₁ h
  exact Unlost.bind (fun _ => Unlost.pure (h outcome rfl)) core₁

theorem unlost_dispatchNotification (sessionId : UInt16) (inner : Bytes) :
    Unlost ofOutcome (dispatchNotification env sessionId inner) := by
  refine Unlost.bind fun _ => ?_
  split
  · exact Unlost.pure (by simp [ofOutcome])
  · exact unlost_guarded env _

theorem unlost_untilExit {f : α → Loop H DispatchOutcome} (hf : ∀ a, Unlost ofOutcome (f a))
    (as : List α) : Unlost id (untilExit f as) := by
  induction as with
  | nil => exact Unlost.pure (by simp)
  | cons a as ih =>
    intro core
    refine Ends.bind (Ends.seq (hf a core) ?_ fun _ _ _ h => by cases h)
    intro outcome core₁ h
    cases outcome with
    | exit reason => exact Ends.pure (Unlost.pure (by simpa [ofOutcome] using h _ rfl) core₁)
    | cont => exact Ends.pure (ih core₁)

theorem unlost_firstOf {phases : List (Loop H (Option ExitReason))}
    (h : ∀ phase ∈ phases, Unlost id phase) : Unlost id (Code.firstOf id phases) := by
  induction phases with
  | nil => exact Unlost.pure (by simp)
  | cons phase phases ih =>
    intro core
    refine Ends.seq (h phase List.mem_cons_self core) ?_ fun _ _ _ h => by cases h
    intro exit core₁ ho
    cases exit with
    | some reason => exact Unlost.pure (ho _ rfl) core₁
    | none => exact ih (fun p hp => h p (List.mem_cons_of_mem _ hp)) core₁

theorem unlost_frameworkPhases (b : Batch) : Unlost id (frameworkPhases env b) := by
  apply unlost_firstOf
  intro phase hphase
  simp only [List.mem_cons, List.not_mem_nil, or_false] at hphase
  obtain rfl | rfl | rfl | rfl | rfl | rfl := hphase
  · exact unlost_untilExit (fun _ => unlost_dispatchResolution env _ _) _
  · exact unlost_untilExit (fun _ => unlost_dispatchResolution env _ _) _
  · exact unlost_untilExit (fun _ => Unlost.bind fun _ => unlost_dispatch env _ _) _
  · exact unlost_untilExit (fun _ => unlost_dispatch env _ _) _
  · exact unlost_untilExit (unlost_connectSubscriber env) _
  · exact unlost_untilExit (fun _ => unlost_dispatch env _ _) _

theorem unlost_serve (revoked : HashSet UInt16) (elapsed : Nat → Bool) (session : α → UInt16)
    {deliver : α → Loop H DispatchOutcome} (hdeliver : ∀ a, Unlost ofOutcome (deliver a))
    (dispatched : Nat) (as : List α) :
    Unlost ofResult (serve revoked elapsed session deliver dispatched as) := by
  induction as generalizing dispatched with
  | nil => exact Unlost.pure (by simp [ofResult])
  | cons a as ih =>
    intro core
    unfold serve
    split
    · exact ih dispatched core
    · refine Ends.seq (hdeliver a core) ?_ fun _ _ _ h => by cases h
      intro outcome core₁ h
      cases outcome with
      | exit reason => exact Unlost.pure (by simpa [ofOutcome, ofResult] using h _ rfl) core₁
      | cont =>
        dsimp only
        split
        · exact Unlost.pure (by simp [ofResult]) core₁
        · exact ih (dispatched + 1) core₁

end Unlost

section Phases

theorem goesOn_untilExit {α : Type} {f : α → Loop H DispatchOutcome} {seen : α → List Event}
    (hf : ∀ a, GoesOn (f a) .cont (seen a)) (as : List α) :
    GoesOn (untilExit f as) none (as.flatMap seen) := by
  induction as with
  | nil => exact fun core _ => Std.Refl.refl (r := Hidden) core
  | cons a as ih =>
    intro core
    refine Ends.bind (Ends.seq (hf a core) ?_ fun _ _ h => by cases h)
    intro outcome core₁ h₁
    cases outcome with
    | exit reason => exact fun h => by cases h
    | cont =>
      refine Ends.pure ((ih core₁).mono ?_)
      exact fun _ _ h₂ hnone => (h₁ rfl).trans (h₂ hnone)

theorem goesOn_nil : GoesOn (Code.firstOf id [] : Loop H (Option ExitReason)) none [] :=
  fun core _ => Std.Refl.refl (r := Hidden) core

theorem goesOn_cons {phase : Loop H (Option ExitReason)}
    {phases : List (Loop H (Option ExitReason))} {seen seen' : List Event}
    (h : GoesOn phase none seen) (h' : GoesOn (Code.firstOf id phases) none seen') :
    GoesOn (Code.firstOf id (phase :: phases)) none (seen ++ seen') := by
  intro core
  refine Ends.seq (h core) ?_ fun _ _ h => by cases h
  intro exit core₁ h₁
  cases exit with
  | some reason => exact fun h => by cases h
  | none =>
    apply (h' core₁).mono
    exact fun _ _ h₂ hnone => (h₁ rfl).trans (h₂ hnone)

theorem flatMap_nothing {α : Type} (as : List α) : as.flatMap (fun _ => ([] : List Event)) = [] :=
  List.flatMap_eq_nil_iff.mpr fun _ _ => rfl

def disconnections (b : Batch) : List Event :=
  b.teardowns.flatMap fun a => [.called (.subscriberDisconnected a.1 a.2)]

def connections (b : Batch) : List Event :=
  b.subscriberConnected.flatMap fun sessionId => [.called (.subscriberConnected sessionId)]

theorem goesOn_frameworkPhases (b : Batch) :
    GoesOn (frameworkPhases env b) none (disconnections b ++ connections b) := by
  have hreply (a : UInt16 × Token × Bytes) :
      GoesOn (dispatchReply env a.1 a.2.1 a.2.2) .cont [] :=
    goesOn_of_hidden (hidden_dispatchResolution env _ rfl _ rfl) _
  have hfailed (a : UInt16 × Token) : GoesOn (dispatchFailed env a.1 a.2) .cont [] :=
    goesOn_of_hidden (hidden_dispatchResolution env _ rfl _ rfl) _
  have hteardown (a : UInt16 × TeardownReason) :
      GoesOn (tearDown env a.1 a.2) .cont [.called (.subscriberDisconnected a.1 a.2)] :=
    goesOn_tearDown env a.1 a.2
  have hexited (a : Address × ExitReason) : GoesOn (dispatchPaneExited env a.1 a.2) .cont [] :=
    goesOn_dispatch env (.paneExited a.1 a.2) _
  have hlifecycle (msg : LifecycleMessage) : GoesOn (dispatchLifecycle env msg) .cont [] :=
    goesOn_dispatch env (.lifecycle msg) _
  have hall := goesOn_cons (goesOn_untilExit hreply b.replies)
    (goesOn_cons (goesOn_untilExit hfailed b.failed)
    (goesOn_cons (goesOn_untilExit hteardown b.teardowns)
    (goesOn_cons (goesOn_untilExit hexited b.paneExited)
    (goesOn_cons (goesOn_untilExit (goesOn_connectSubscriber env) b.subscriberConnected)
    (goesOn_cons (goesOn_untilExit hlifecycle b.lifecycle) goesOn_nil)))))
  simp only [flatMap_nothing, List.nil_append, List.append_nil] at hall
  exact hall

theorem reporting_untilExit {α : Type} {f : α → Loop H DispatchOutcome}
    (hf : ∀ a, Moves Reporting Reporting (f a)) (as : List α) :
    Moves Reporting Reporting (untilExit f as) := by
  refine Moves.firstOf (fun a => Moves.bind (hf a) fun outcome => ?_) as
  cases outcome with
  | cont => exact Moves.pure _
  | exit reason => exact Moves.pure _

theorem reporting_firstOf {phases : List (Loop H (Option ExitReason))}
    (h : ∀ phase ∈ phases, Moves Reporting Reporting phase) :
    Moves Reporting Reporting (Code.firstOf id phases) := by
  induction phases with
  | nil => exact Moves.pure none
  | cons phase phases ih =>
    refine Moves.bind (h phase List.mem_cons_self) fun exit => ?_
    cases exit with
    | some reason => exact Moves.pure _
    | none => exact ih fun p hp => h p (List.mem_cons_of_mem _ hp)

theorem reporting_frameworkPhases (b : Batch) :
    Moves Reporting Reporting (frameworkPhases env b) := by
  have hreply (a : UInt16 × Token × Bytes) :
      Moves Reporting Reporting (dispatchReply env a.1 a.2.1 a.2.2) :=
    reporting_of_hidden (hidden_dispatchResolution env _ rfl _ rfl)
  have hfailed (a : UInt16 × Token) : Moves Reporting Reporting (dispatchFailed env a.1 a.2) :=
    reporting_of_hidden (hidden_dispatchResolution env _ rfl _ rfl)
  have hteardown (a : UInt16 × TeardownReason) :
      Moves Reporting Reporting (tearDown env a.1 a.2) := reporting_tearDown env a.1 a.2
  have hexited (a : Address × ExitReason) :
      Moves Reporting Reporting (dispatchPaneExited env a.1 a.2) :=
    reporting_dispatch env (env.handler.paneExited a.1 a.2) (by simp)
  have hlifecycle (msg : LifecycleMessage) :
      Moves Reporting Reporting (dispatchLifecycle env msg) :=
    reporting_dispatch env (env.handler.receive msg) (by simp)
  apply reporting_firstOf
  intro phase hphase
  simp only [List.mem_cons, List.not_mem_nil, or_false] at hphase
  obtain rfl | rfl | rfl | rfl | rfl | rfl := hphase
  · exact reporting_untilExit hreply _
  · exact reporting_untilExit hfailed _
  · exact reporting_untilExit hteardown _
  · exact reporting_untilExit hexited _
  · exact reporting_untilExit (reporting_connectSubscriber env) _
  · exact reporting_untilExit hlifecycle _

end Phases

section Inbound

theorem adds_serve {α : Type} (revoked : HashSet UInt16) (elapsed : Nat → Bool)
    (session : α → UInt16) {deliver : α → Loop H DispatchOutcome} {handed : α → Event}
    (hdeliver : ∀ a, Moves (Adds [handed a]) (Adds [handed a]) (deliver a)) (dispatched : Nat)
    (as : List α) (core : LooperCore H) :
    Ends (serve revoked elapsed session deliver dispatched as) core fun o core' =>
      ∃ served rest, as = served ++ rest ∧
        Adds ((served.filter fun a => decide (session a ∉ revoked)).map handed) core core' ∧
        ∀ n left, o = .done (.ok (n, left)) → left = rest := by
  induction as generalizing dispatched core with
  | nil =>
    refine ⟨[], [], rfl, Std.Refl.refl (r := Hidden) core, fun n left h => ?_⟩
    cases h
    rfl
  | cons a as ih =>
    unfold serve
    split
    · next hrevoked =>
      apply (ih dispatched core).mono
      rintro o core' ⟨served, rest, rfl, hadds, hleft⟩
      exact ⟨a :: served, rest, rfl, by simpa [hrevoked] using hadds, hleft⟩
    · next hrevoked =>
      have hone : ∀ {core'}, Adds [handed a] core core' →
          Adds (([a].filter fun a => decide (session a ∉ revoked)).map handed) core core' :=
        fun h => by simpa [hrevoked] using h
      refine Ends.seq ((hdeliver a).always core) ?_
        fun _ h => ⟨[a], as, rfl, hone h, fun _ _ h => by cases h⟩
      intro outcome core₁ h₁
      cases outcome with
      | exit reason => exact ⟨[a], as, rfl, hone h₁, fun _ _ h => by cases h⟩
      | cont =>
        dsimp only
        split
        · refine ⟨[a], as, rfl, hone h₁, fun n left h => ?_⟩
          cases h
          rfl
        · apply (ih (dispatched + 1) core₁).mono
          rintro o core' ⟨served, rest, rfl, hadds, hleft⟩
          exact ⟨a :: served, rest, rfl, by simpa [hrevoked] using h₁.trans hadds, hleft⟩

def handedRequest (r : UInt16 × Token × Bytes) : Event := .handed r.1 (.request r.2.1 r.2.2)

def handedNotification (n : UInt16 × Bytes) : Event := .handed n.1 (.notification n.2)

def handedOver (revoked : HashSet UInt16) (rs : List (UInt16 × Token × Bytes))
    (ns : List (UInt16 × Bytes)) : List Event :=
  (rs.filter fun r => decide (r.1 ∉ revoked)).map handedRequest ++
    (ns.filter fun n => decide (n.1 ∉ revoked)).map handedNotification

/-- Phase 5 takes a first part of the requests and, once there are none left, a
first part of the notifications. -/
structure Served (b rest : Batch) (rs : List (UInt16 × Token × Bytes))
    (ns : List (UInt16 × Bytes)) : Prop where
  requests : b.requests = rs ++ rest.requests
  notifications : b.notifications = ns ++ rest.notifications
  requestsFirst : ns ≠ [] → rest.requests = []
  teardowns : rest.teardowns = []
  subscriberConnected : rest.subscriberConnected = []
  revokedSessions : rest.revokedSessions = b.revokedSessions

/-- How a batch ends that leaves `rest`: the loop goes on with it, or the end of
the connection is announced, for which nothing may be left. -/
structure Concluded (b rest : Batch) (last : List Event)
    (o : Outcome (Except ExitReason LoopState)) : Prop where
  left : ∀ state, o = .done (.ok state) → state.batch = rest ∧ last = []
  lost : o = .done (.error .disconnected) → rest = b.remaining [] []
  last : last = [] ∨ last = [.called .disconnected] ∧ b.channelClosed = true ∧ rest = b.remaining [] []

theorem Concluded.filterMap_last {α : Type} {f : Event → Option α} {b rest : Batch}
    {last : List Event} {o : Outcome (Except ExitReason LoopState)} (h : Concluded b rest last o)
    (hf : f (.called .disconnected) = none) : last.filterMap f = [] := by
  obtain rfl | ⟨rfl, -⟩ := h.last
  · rfl
  · simp [hf]

theorem concluded_early {b rest : Batch} {o : Outcome (Except ExitReason LoopState)}
    (hok : ∀ state, o ≠ .done (.ok state)) (hlost : o ≠ .done (.error .disconnected)) :
    Concluded b rest [] o :=
  ⟨fun state h => absurd h (hok state), fun h => absurd h hlost, .inl rfl⟩

theorem concluded_error {α : Type} {b rest : Batch} {reason : ExitReason}
    (h : ∀ a : Except ExitReason α, Outcome.done (.error reason) = .done a →
      ofResult a ≠ some .disconnected) : Concluded b rest [] (.done (.error reason)) := by
  have hne : reason ≠ .disconnected := by simpa [ofResult] using h _ rfl
  exact concluded_early nofun fun he => hne (by cases he; rfl)

theorem concluded_ok (b rest : Batch) (sharedWriter : Bool) :
    Concluded b rest [] (.done (.ok ⟨rest, sharedWriter⟩)) := by
  refine ⟨fun state' h => ?_, nofun, .inl rfl⟩
  cases h
  exact ⟨rfl, rfl⟩

theorem served_requests {b : Batch} {rs left : List (UInt16 × Token × Bytes)}
    (h : b.requests = rs ++ left) : Served b (b.remaining left b.notifications) rs [] :=
  ⟨h, rfl, fun hne => absurd rfl hne, rfl, rfl, rfl⟩

theorem served_notifications {b : Batch} {rs : List (UInt16 × Token × Bytes)}
    {ns left : List (UInt16 × Bytes)} (h : b.requests = rs ++ [])
    (h' : b.notifications = ns ++ left) : Served b (b.remaining [] left) rs ns :=
  ⟨h, h', fun _ => rfl, rfl, rfl, rfl⟩

def Worked (b : Batch) (core : LooperCore H) (o : Outcome (Except ExitReason LoopState))
    (core' : LooperCore H) : Prop :=
  ∃ rs ns rest last, Served b rest rs ns ∧ Concluded b rest last o ∧
    Adds (handedOver b.revokedSessions rs ns ++ last) core core'

section Ends

variable {b rest : Batch} {rs : List (UInt16 × Token × Bytes)} {ns : List (UInt16 × Bytes)}
  {o : Outcome (Except ExitReason LoopState)} {core core₁ core₂ : LooperCore H}

theorem Served.worked (h : Served b rest rs ns)
    (hadds : Adds (handedOver b.revokedSessions rs ns) core core₁) (hend : Concluded b rest [] o) :
    Worked b core o core₁ :=
  ⟨rs, ns, rest, [], h, hend, by rwa [List.append_nil]⟩

theorem Served.parted (h : Served b (b.remaining [] []) rs ns)
    (hadds : Adds (handedOver b.revokedSessions rs ns) core core₁) (hclosed : b.channelClosed = true)
    (hok : ∀ state, o ≠ .done (.ok state)) (hparting : Parting core₁ core₂) :
    Worked b core o core₂ := by
  have hleft : ∀ {last : List Event} state, o = .done (.ok state) →
      state.batch = b.remaining [] [] ∧ last = [] := fun state he => absurd he (hok state)
  obtain hquiet | htold := hparting
  · exact ⟨rs, ns, _, [], h, ⟨hleft, fun _ => rfl, .inl rfl⟩, hadds.trans hquiet⟩
  · exact ⟨rs, ns, _, [.called .disconnected], h,
      ⟨hleft, fun _ => rfl, .inr ⟨rfl, hclosed, rfl⟩⟩, hadds.trans htold⟩

end Ends

theorem adds_inboundPhase (elapsed : Nat → Bool) (state : LoopState) (core : LooperCore H) :
    Ends (inboundPhase env elapsed state) core (Worked state.batch core) := by
  have hrequest (r : UInt16 × Token × Bytes) :
      Moves (Adds [handedRequest r]) (Adds [handedRequest r])
        (dispatchRequestWithContext env state.sharedWriter r.1 r.2.1 r.2.2) :=
    adds_dispatchRequestWithContext env _ r.1 r.2.1 r.2.2
  have hnotification (n : UInt16 × Bytes) :
      Moves (Adds [handedNotification n]) (Adds [handedNotification n])
        (dispatchNotification env n.1 n.2) := adds_dispatchNotification env n.1 n.2
  have hunlost₁ (r : UInt16 × Token × Bytes) : Unlost ofOutcome
      (dispatchRequestWithContext env state.sharedWriter r.1 r.2.1 r.2.2) :=
    Unlost.bind fun _ => unlost_guarded env _
  have hunlost₂ (n : UInt16 × Bytes) : Unlost ofOutcome (dispatchNotification env n.1 n.2) :=
    unlost_dispatchNotification env n.1 n.2
  have hadds₁ {rs core₁} (h : Adds ((rs.filter fun r =>
      decide (r.1 ∉ state.batch.revokedSessions)).map handedRequest) core core₁) :
      Adds (handedOver state.batch.revokedSessions rs []) core core₁ := by
    simpa [handedOver] using h
  refine Ends.seq ((adds_serve state.batch.revokedSessions elapsed (fun r => r.1) hrequest 0
    state.batch.requests core).and (unlost_serve _ elapsed _ hunlost₁ 0 _ core)) ?_ ?_
  · rintro result core₁ ⟨⟨rs, restRequests, hrs, hfirst, hleft⟩, hunlost⟩
    cases result with
    | error reason => exact (served_requests hrs).worked (hadds₁ hfirst) (concluded_error hunlost)
    | ok served =>
      obtain ⟨dispatched, left⟩ := served
      obtain rfl := hleft dispatched left rfl
      dsimp only
      split
      · exact Ends.pure ((served_requests hrs).worked (hadds₁ hfirst) (concluded_ok _ _ _))
      next hempty =>
      obtain rfl : left = [] := not_not.mp hempty
      refine Ends.seq ((adds_serve state.batch.revokedSessions elapsed (fun n => n.1)
        hnotification dispatched state.batch.notifications core₁).and
        (unlost_serve _ elapsed _ hunlost₂ dispatched _ core₁)) ?_ ?_
      · rintro result core₂ ⟨⟨ns, restNotifications, hns, hsecond, hleft⟩, hunlost⟩
        have hserved := served_notifications hrs hns
        have hadds : Adds (handedOver state.batch.revokedSessions rs ns) core core₂ :=
          hfirst.trans hsecond
        cases result with
        | error reason => exact hserved.worked hadds (concluded_error hunlost)
        | ok served =>
          obtain ⟨n, left⟩ := served
          obtain rfl := hleft n left rfl
          dsimp only
          split
          · exact Ends.pure (hserved.worked hadds (concluded_ok _ _ _))
          next hempty =>
          obtain rfl : left = [] := not_not.mp hempty
          split
          · next hclosed =>
            refine Ends.seq (parting_channelClosed env core₂) ?_ ?_
            · exact fun reason core₃ h => Ends.pure (hserved.parted hadds hclosed nofun h)
            · exact fun core₃ h => hserved.parted hadds hclosed nofun h
          · exact Ends.pure (hserved.worked hadds (concluded_ok _ _ _))
      · rintro core₂ ⟨⟨ns, restNotifications, hns, hsecond, -⟩, -⟩
        exact (served_notifications hrs hns).worked (hfirst.trans hsecond)
          (concluded_early nofun nofun)
  · rintro core₁ ⟨⟨rs, restRequests, hrs, hfirst, -⟩, -⟩
    exact (served_requests hrs).worked (hadds₁ hfirst) (concluded_early nofun nofun)

structure Ran (b rest : Batch) (rs : List (UInt16 × Token × Bytes)) (ns : List (UInt16 × Bytes))
    (o : Outcome (Except ExitReason LoopState)) (core core' : LooperCore H) : Prop where
  served : Served b rest rs ns
  adds : ∃ seen last, Concluded b rest last o ∧
    Adds (seen ++ handedOver b.revokedSessions rs ns ++ last) core core' ∧
    (∀ e ∈ seen, isReport e) ∧
    ((∃ state, o = .done (.ok state)) ∨ o = .done (.error .disconnected) →
      seen = disconnections b ++ connections b)

theorem ran_early {b : Batch} {o : Outcome (Except ExitReason LoopState)} {core core' : LooperCore H}
    (h : Reporting core core') (hok : ∀ state, o ≠ .done (.ok state))
    (hlost : o ≠ .done (.error .disconnected)) :
    Ran b (b.remaining b.requests b.notifications) [] [] o core core' := by
  obtain ⟨seen, hadds, hseen⟩ := h
  refine ⟨⟨rfl, rfl, fun h => absurd rfl h, rfl, rfl, rfl⟩, seen, [], concluded_early hok hlost,
    by simpa [handedOver] using hadds, hseen, ?_⟩
  rintro (⟨state, h⟩ | h)
  · exact absurd h (hok state)
  · exact absurd h hlost

theorem adds_dispatchBatch (elapsed : Nat → Bool) (state : LoopState) (core : LooperCore H) :
    Ends (dispatchBatch env elapsed state) core fun o core' =>
      ∃ rs ns rest, Ran state.batch rest rs ns o core core' := by
  have hsync := Moves.forEach (hidden_processSyncRequest env) state.batch.syncRequests
  have hwrites : Moves Hidden Hidden (Code.forEach
      (fun payload => do let _ ← trySend env 0 payload) state.batch.ctlWrites) :=
    Moves.forEach (fun payload => Moves.bind (hidden_trySend env 0 payload) fun _ => Moves.pure _) _
  refine Ends.seq (hsync.always core) ?_
    fun _ h => ⟨[], [], _, ran_early ⟨[], h, by simp⟩ nofun nofun⟩
  intro _ core₁ h₁
  refine Ends.seq (((goesOn_frameworkPhases env state.batch core₁).and
    ((reporting_frameworkPhases env state.batch).always core₁)).and
    (unlost_frameworkPhases env state.batch core₁)) ?_ ?_
  · rintro exit core₂ ⟨⟨hseen, part, hpart, hreports⟩, hunlost⟩
    cases exit with
    | some reason =>
      have hne : reason ≠ .disconnected := by simpa using hunlost _ rfl
      refine Ends.pure ⟨[], [], _, ran_early ⟨part, h₁.trans hpart, hreports⟩ nofun ?_⟩
      exact fun he => hne (by cases he; rfl)
    | none =>
      have hboth : Adds (disconnections state.batch ++ connections state.batch) core core₂ :=
        h₁.trans (hseen rfl)
      have hreport : ∀ e ∈ disconnections state.batch ++ connections state.batch, isReport e := by
        intro e he
        obtain he | he := List.mem_append.mp he
        · obtain ⟨a, -, he⟩ := List.mem_flatMap.mp he
          rw [List.mem_singleton.mp he]
          rfl
        · obtain ⟨a, -, he⟩ := List.mem_flatMap.mp he
          rw [List.mem_singleton.mp he]
          rfl
      refine Ends.seq (hwrites.always core₂) ?_ fun _ h => ⟨[], [], _, ran_early
        ⟨_, by simpa using hboth.trans h, hreport⟩ nofun nofun⟩
      intro _ core₃ h₃
      apply (adds_inboundPhase env elapsed _ core₃).mono
      rintro o core₄ ⟨rs, ns, rest, last, hserved, hconcluded, hadds⟩
      refine ⟨rs, ns, rest, hserved, _, last, hconcluded, ?_, hreport, fun _ => rfl⟩
      simpa using (hboth.trans h₃).trans hadds
  · rintro core₂ ⟨⟨-, part, hpart, hreports⟩, -⟩
    exact ⟨[], [], _, ran_early ⟨part, h₁.trans hpart, hreports⟩ nofun nofun⟩

theorem served_of_isEmpty {b : Batch} (h : b.isEmpty) :
    Served b b [] [] ∧ disconnections b = [] ∧ connections b = [] := by
  simp only [Batch.isEmpty, Bool.and_eq_true, List.isEmpty_iff] at h
  have hteardowns : b.teardowns = [] := by tauto
  have hconnected : b.subscriberConnected = [] := by tauto
  refine ⟨⟨rfl, rfl, fun h => absurd rfl h, hteardowns, hconnected, rfl⟩, ?_, ?_⟩
  · rw [disconnections, hteardowns, List.flatMap_nil]
  · rw [connections, hconnected, List.flatMap_nil]

theorem ends_infraError (core : LooperCore H) :
    Ends (infraError env) core fun o core' =>
      (∀ reason, o = .done reason → reason = .infraError) ∧ Hidden core core' := by
  refine Ends.seq ((hidden_runDestruction env .infraError).always core) ?_ fun _ h => ⟨nofun, h⟩
  intro _ core₁ h
  refine Ends.pure ⟨fun reason he => ?_, h⟩
  cases he
  rfl

theorem adds_tickStep (state : LoopState) (tick : Tick) (core : LooperCore H) :
    Ends (tickStep env state tick) core fun o core' =>
      tick.pollFails = true ∧ Hidden core core' ∧ (∀ state, o ≠ .done (.ok state)) ∧
        o ≠ .done (.error .disconnected) ∨
      tick.pollFails = false ∧ ∃ rs ns rest,
        Ran (tick.inputs.foldl (collectInput env.pc) state.batch) rest rs ns o core core' := by
  unfold tickStep
  split
  · next hfails =>
    refine Ends.seq (ends_infraError env core) ?_ ?_
    · rintro reason core₁ ⟨h, hhidden⟩
      cases h reason rfl
      exact Ends.pure (.inl ⟨hfails, hhidden, nofun, nofun⟩)
    · exact fun core₁ h => .inl ⟨hfails, h.2, nofun, nofun⟩
  · next hfails =>
    have hpolled : tick.pollFails = false := by simpa using hfails
    dsimp only
    split
    · next hempty =>
      obtain ⟨hserved, hdisconnections, hconnections⟩ := served_of_isEmpty hempty
      refine Ends.pure (.inr ⟨hpolled, [], [], _, hserved, [], [], concluded_ok _ _ _, ?_, by simp, ?_⟩)
      · exact Std.Refl.refl (r := Hidden) core
      · intro _
        rw [hdisconnections, hconnections, List.append_nil]
    · exact (adds_dispatchBatch env tick.elapsed _ core).mono fun _ _ h => .inr ⟨hpolled, h⟩

theorem goesOn_tickStep (state : LoopState) (tick : Tick) (core : LooperCore H) :
    Ends (tickStep env state tick) core fun o core' =>
      let b := tick.inputs.foldl (collectInput env.pc) state.batch
      (∃ state, o = .done (.ok state)) ∨ o = .done (.error .disconnected) →
        ∃ rs ns rest last, Served b rest rs ns ∧ Concluded b rest last o ∧
          Adds (disconnections b ++ connections b ++ handedOver b.revokedSessions rs ns ++ last)
            core core' := by
  apply (adds_tickStep env state tick core).mono
  rintro o core' (⟨-, -, hok, hlost⟩ | ⟨-, rs, ns, rest, hserved, seen, last, hconcluded, hadds, -, hall⟩)
    b hgoes
  · obtain ⟨state', h⟩ | h := hgoes
    · exact absurd h (hok state')
    · exact absurd h hlost
  · rw [hall hgoes] at hadds
    exact ⟨rs, ns, rest, last, hserved, hconcluded, hadds⟩

end Inbound

end Pane.BatchPhases
