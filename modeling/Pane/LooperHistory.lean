import Pane.ContextEffects
import Pane.CoreRuns

namespace Pane.LooperHistory

open Pane.HashTable Pane.Messages Pane.Correlator Pane.Callbacks Pane.Unwinding Pane.LooperState
open Pane.CoreDispatch Pane.CoreRequest Pane.Looper Pane.CoreRuns Pane.ContextEffects

variable {H : Type} (env : Env H) {core core' : LooperCore H} {call : Call} {flow : Flow}
  {reason : ExitReason} {notes : List (Nat × Note)}

def Standing (notes : List (Nat × Note)) : Prop := ∀ n reason, (n, Note.destroying reason) ∉ notes

/-- A failure closure that a cascade sets out to run. What it returns is discarded. -/
def Cascaded (notes : List (Nat × Note)) (call : Call) : Prop :=
  ∃ n tokens, (n, Note.cascading tokens) ∈ notes ∧ ∃ t ∈ tokens, call = .onFailed t

def Heeded (notes : List (Nat × Note)) : Prop :=
  ∀ before n call after, notes = before ++ (n, Note.returned call .stop) :: after →
    Cascaded before call

def Closing (notes : List (Nat × Note)) : Prop :=
  ∀ n ∈ notes, (∀ reason, n.2 ≠ .destroying reason) ∧
    ∀ call flow, n.2 = .returned call flow → ∃ t, call = .onFailed t

/-- The looper waits for the next message. -/
structure Running (core : LooperCore H) : Prop where
  exited : core.exited = false
  exitTx : core.exitTx = []
  standing : Standing core.notes
  heeded : Heeded core.notes

/-- The request to stop that a destruction answers, made right before it. -/
def asking (n : Nat) : Option Call → List (Nat × Note)
  | none => []
  | some call => [(n, .returned call .stop)]

/-- The destruction sequence has been run, once. Only failure closures were
called since then. -/
def Destroyed (reason : ExitReason) (stopped : Option Call) (core : LooperCore H) : Prop :=
  ∃ before n after,
    core.notes = before ++ (asking n stopped ++ (n, .destroying reason) :: after) ∧
    Standing before ∧ Heeded before ∧ Closing after ∧
    ∀ call, Event.called call ∈ core.trace.drop n → ∃ t, call = .onFailed t

/-- The looper is left: `call` has panicked, or it has asked for it. -/
inductive EndedBy (call : Call) : ExitReason → LooperCore H → Prop
  | panicked {core : LooperCore H} (hexitTx : core.exitTx = [.failed])
    (h : Destroyed .failed none core) : EndedBy call .failed core
  | asked {core : LooperCore H} (hexitTx : core.exitTx = [.graceful])
    (h : Destroyed .graceful (some call) core) : EndedBy call .graceful core

/-- The looper is left. What `disconnected` asks for is reported twice. -/
inductive Ended : ExitReason → LooperCore H → Prop
  | unasked {reason : ExitReason} {core : LooperCore H} (hexitTx : core.exitTx = [reason])
    (h : Destroyed reason none core) : Ended reason core
  | asked {core : LooperCore H} (call : Call) (hcall : call ≠ .disconnected)
    (hexitTx : core.exitTx = [.graceful]) (h : Destroyed .graceful (some call) core) :
    Ended .graceful core
  | corrected {core : LooperCore H} (hexitTx : core.exitTx = [.graceful, .disconnected])
    (h : Destroyed .graceful (some .disconnected) core) : Ended .disconnected core

def PostBy (call : Call) : Outcome DispatchOutcome → LooperCore H → Prop :=
  Leaves ofOutcome Running (EndedBy call) fun _ => True

def Post : Outcome DispatchOutcome → LooperCore H → Prop :=
  Leaves ofOutcome Running Ended fun _ => True

theorem PostBy.post {o : Outcome DispatchOutcome} (h : PostBy call o core)
    (hcall : call ≠ .disconnected) : Post o core := by
  cases o with
  | panicked => trivial
  | done outcome =>
    cases outcome with
    | cont => exact h
    | exit reason =>
      cases h with
      | panicked hexitTx h => exact .unasked hexitTx h
      | asked hexitTx h => exact .asked call hcall hexitTx h

theorem running_new (handler : H) (primaryConnection : PeerScope) :
    Running (LooperCore.new handler primaryConnection) :=
  ⟨rfl, rfl, fun _ _ h => (List.not_mem_nil h).elim, fun _ _ _ _ h => by simp [LooperCore.new] at h⟩

theorem Standing.append {ns : List (Nat × Note)} (h : Standing notes) (h' : Standing ns) :
    Standing (notes ++ ns) :=
  fun n reason hmem => (List.mem_append.mp hmem).elim (h n reason) (h' n reason)

theorem Closing.standing (h : Closing notes) : Standing notes :=
  fun _ reason hmem => (h _ hmem).1 reason rfl

theorem split_append {ns before after : List (Nat × Note)} {n : Nat × Note}
    (h : notes ++ ns = before ++ n :: after) :
    (∃ after', notes = before ++ n :: after') ∨
      ∃ mid, before = notes ++ mid ∧ ns = mid ++ n :: after := by
  obtain ⟨mid, rfl, hns⟩ | ⟨mid, rfl, hafter⟩ := List.append_eq_append_iff.mp h
  · exact .inr ⟨mid, rfl, hns⟩
  · cases mid with
    | nil => exact .inr ⟨[], by simp, hafter.symm⟩
    | cons m mid =>
      obtain ⟨rfl, -⟩ := List.cons.inj hafter
      exact .inl ⟨mid, rfl⟩

theorem Heeded.append {ns : List (Nat × Note)} (h : Heeded notes)
    (h' : ∀ mid n call after, ns = mid ++ (n, Note.returned call .stop) :: after →
      Cascaded (notes ++ mid) call) : Heeded (notes ++ ns) := by
  intro before n call after heq
  obtain ⟨after', hnotes⟩ | ⟨mid, rfl, hns⟩ := split_append heq
  · exact h before n call after' hnotes
  · exact h' mid n call after hns

theorem Heeded.append_of_notMem {ns : List (Nat × Note)} (h : Heeded notes)
    (h' : ∀ n call, (n, Note.returned call .stop) ∉ ns) : Heeded (notes ++ ns) :=
  h.append fun _ n call _ hns => absurd (hns ▸ List.mem_append_right _ List.mem_cons_self) (h' n call)

theorem Running.worksWith {direct : Bool} (h : Running core) (hworks : WorksWith direct core core') :
    Running core' := by
  obtain ⟨ns, hnotes, hns⟩ := hworks.notes
  refine ⟨hworks.exited.trans h.exited, hworks.exitTx.trans h.exitTx, ?_, ?_⟩
  · rw [hnotes]
    exact h.standing.append fun n reason hmem => by simpa using hns _ hmem
  · rw [hnotes]
    exact h.heeded.append_of_notMem fun n call hmem => by simpa using hns _ hmem

theorem Running.works (h : Running core) (hworks : Works core core') : Running core' :=
  h.worksWith hworks

theorem Running.log (h : Running core) (e : Event) : Running (core.log e) :=
  ⟨h.exited, h.exitTx, h.standing, h.heeded⟩

section Cascade

def FailEvent (tokens : List Token) (e : Event) : Prop :=
  ∀ call, e = .called call → ∃ t ∈ tokens, call = .onFailed t

def FailNote (tokens : List Token) (n : Note) : Prop :=
  n = .direct ∨ ∃ t ∈ tokens, ∃ flow, n = .returned (.onFailed t) flow

abbrev Fails (tokens : List Token) (core core' : LooperCore H) : Prop :=
  Passes (FailEvent tokens) (FailNote tokens) core core'

variable {tokens : List Token} {t : Token}

theorem fails_of_works (h : Works core core') : Fails tokens core core' :=
  h.mono (fun e he call hcall => by simp [hcall, isWork] at he) fun _ hn => .inl hn.1

theorem fails_invoke (ht : t ∈ tokens) (code : H → Callback H) :
    Moves (Fails tokens) (Fails tokens) (invoke env (.onFailed t) code) := by
  intro core
  have hcalled : Fails tokens core (core.log (.called (.onFailed t))) :=
    .event (fun call hcall => ⟨t, ht, (Event.called.inj hcall).symm⟩) rfl rfl rfl rfl
  apply (ends_entered (works_perform env) code core).mono
  intro o core' h
  obtain ⟨core₁, hworks, h⟩ := h
  have h₁ : Fails tokens core core₁ := hcalled.trans (fails_of_works hworks)
  cases o with
  | done flow =>
    subst h
    exact h₁.trans (.note (.inr ⟨t, ht, flow, rfl⟩) core₁)
  | panicked =>
    subst h
    exact h₁.trans (.event (fun call hcall => by simp at hcall) rfl rfl rfl rfl)

theorem fails_failToken (ht : t ∈ tokens) :
    Moves (Fails tokens) (Fails tokens) (failToken env t) := by
  have hworks {α : Type} {m : Loop H α} (h : Moves Works Works m) :
      Moves (Fails tokens) (Fails tokens) m :=
    h.mono (fun _ _ => fails_of_works) fun _ _ => fails_of_works
  refine Moves.bind ?_ fun _ => Moves.pure _
  refine Moves.bind (Moves.gets _) fun key => Moves.bind (Moves.gets _) fun found => ?_
  cases found with
  | some entry =>
    refine Moves.bind (Moves.modify fun core => .silent rfl rfl rfl rfl) fun _ => ?_
    exact Moves.bind (fails_invoke env ht entry.onFailed) fun _ => Moves.pure _
  | none =>
    refine Moves.bind (Moves.gets _) fun found => ?_
    cases found with
    | none => exact Moves.pure _
    | some entry =>
      refine Moves.bind (Moves.modify fun core => .silent rfl rfl rfl rfl) fun _ => ?_
      exact Moves.bind (hworks (works_settle t entry rfl)) fun _ => Moves.pure _

theorem fails_failTokens {ts : List Token} (h : ∀ t ∈ ts, t ∈ tokens) :
    Moves (Fails tokens) (Fails tokens) (failTokens env ts) := by
  induction ts with
  | nil => exact Moves.pure _
  | cons t ts ih =>
    refine Moves.bind (fails_failToken env (h t List.mem_cons_self)) fun _ => ?_
    exact ih fun t' ht' => h t' (List.mem_cons_of_mem _ ht')

theorem fails_cascade (failure : TokenOrder → ActiveSession → List (PeerScope × Token) × ActiveSession)
    (core : LooperCore H) :
    Ends (cascade env failure) core fun _ core' =>
      ∃ tokens core₁, Fails tokens core₁ core' ∧ core₁.trace = core.trace ∧
        core₁.exited = core.exited ∧ core₁.exitTx = core.exitTx ∧
        core₁.notes = core.notes ++ [(core.trace.length, .cascading tokens)] := by
  apply Ends.gets
  apply Ends.modify
  apply ((fails_failTokens env fun _ ht => ht).always _).mono
  intro o core' h
  exact ⟨_, _, h, rfl, rfl, rfl, rfl⟩

theorem closing_cons {ns : List (Nat × Note)} (hns : ∀ n ∈ ns, FailNote tokens n.2) (k : Nat) :
    Closing ((k, .cascading tokens) :: ns) := by
  intro n hmem
  obtain rfl | hmem := List.mem_cons.mp hmem
  · exact ⟨fun _ => Note.noConfusion, fun _ _ => Note.noConfusion⟩
  · obtain hn | ⟨t, ht, flow, hn⟩ := hns n hmem
    · rw [hn]
      exact ⟨fun _ => Note.noConfusion, fun _ _ => Note.noConfusion⟩
    · rw [hn]
      exact ⟨fun _ => Note.noConfusion, fun _ _ heq => ⟨t, (Note.returned.inj heq).1.symm⟩⟩

end Cascade

theorem running_dispatchTeardown (sessionId : UInt16) (h : Running core) :
    Ends (dispatchTeardown env sessionId) core fun _ core' => Running core' := by
  apply (fails_cascade env _ core).mono
  intro o core' hfails
  obtain ⟨tokens, core₁, hfails, -, hexited, hexitTx, hnotes₁⟩ := hfails
  obtain ⟨ns, hnotes, hns⟩ := hfails.notes
  rw [hnotes₁, List.append_assoc] at hnotes
  refine ⟨(hfails.exited.trans hexited).trans h.exited,
    (hfails.exitTx.trans hexitTx).trans h.exitTx, ?_, ?_⟩
  · rw [hnotes]
    exact h.standing.append (closing_cons hns _).standing
  · rw [hnotes]
    apply h.heeded.append
    intro mid n call after heq
    cases mid with
    | nil => exact Note.noConfusion (Prod.mk.inj (List.cons.inj heq).1).2
    | cons m mid =>
      obtain ⟨rfl, rfl⟩ := List.cons.inj heq
      obtain hdirect | ⟨t, ht, flow, hn⟩ :=
        hns _ (List.mem_append_right mid List.mem_cons_self)
      · exact Note.noConfusion hdirect
      · exact ⟨_, tokens, List.mem_append_right _ List.mem_cons_self, t, ht,
          (Note.returned.inj hn).1⟩

theorem destroyed_runDestruction (reason : ExitReason) (core : LooperCore H) :
    Ends (runDestruction env reason) core fun o core' =>
      match o with
      | .done _ => core'.exitTx = core.exitTx ++ [reason] ∧
          (∃ after, core'.notes = core.notes ++ (core.trace.length, .destroying reason) :: after ∧
            Closing after) ∧
          ∀ call, Event.called call ∈ core'.trace.drop core.trace.length → ∃ t, call = .onFailed t
      | .panicked => True := by
  apply Ends.modify
  refine Ends.seq (fails_cascade env _ _) ?_ fun _ _ => trivial
  intro _ core₂ hfails
  obtain ⟨tokens, core₁, hfails, htrace₁, -, hexitTx, hnotes₁⟩ := hfails
  obtain ⟨ns, hnotes, hns⟩ := hfails.notes
  obtain ⟨es, htrace, hes⟩ := hfails.trace
  apply Ends.modify
  refine ⟨?_, ⟨(core.trace.length, .cascading tokens) :: ns, ?_, ?_⟩, ?_⟩
  · show core₂.exitTx ++ [reason] = core.exitTx ++ [reason]
    rw [hfails.exitTx, hexitTx]
    rfl
  · show core₂.notes = _
    rw [hnotes, hnotes₁]
    simp [LooperCore.note]
  · exact closing_cons hns _
  · intro call hmem
    have hdrop : (core₂.trace ++ List.map (Event.discarded ·.2)
        (core₂.dispatch.entries.keys ++ core₂.dispatch.asyncEntries.keys)).drop core.trace.length =
        es ++ List.map (Event.discarded ·.2)
          (core₂.dispatch.entries.keys ++ core₂.dispatch.asyncEntries.keys) := by
      rw [htrace, htrace₁, List.append_assoc]
      exact List.drop_left
    obtain hmem | hmem := List.mem_append.mp (hdrop ▸ hmem)
    · obtain ⟨t, -, heq⟩ := hes _ hmem call rfl
      exact ⟨t, heq⟩
    · obtain ⟨key, -, hkey⟩ := List.mem_map.mp hmem
      exact Event.noConfusion hkey

theorem unasked_runDestruction (h : Running core) (reason : ExitReason) :
    Ends (runDestruction env reason) core fun o core' =>
      match o with
      | .done _ => core'.exitTx = [reason] ∧ Destroyed reason none core'
      | .panicked => True := by
  apply (destroyed_runDestruction env reason core).mono
  intro o core' ho
  cases o with
  | panicked => trivial
  | done _ =>
    obtain ⟨hexitTx, ⟨after, hnotes, hafter⟩, hcalls⟩ := ho
    rw [h.exitTx] at hexitTx
    exact ⟨hexitTx, core.notes, _, after, hnotes, h.standing, h.heeded, hafter, hcalls⟩

theorem post_failed (h : Running core) : Ends (failed env) core (PostBy call) :=
  Ends.seq (unasked_runDestruction env h .failed)
    (fun _ _ hd => Ends.pure (EndedBy.panicked hd.1 hd.2)) fun _ _ => trivial

theorem post_flowToOutcome (h : Running core) (hnotes : core'.notes =
      core.notes ++ [(core'.trace.length, .returned call flow)])
    (hexited : core'.exited = core.exited) (hexitTx : core'.exitTx = core.exitTx) :
    Ends (flowToOutcome env flow) core' (PostBy call) := by
  cases flow with
  | cont =>
    refine Ends.pure ⟨hexited.trans h.exited, hexitTx.trans h.exitTx, ?_, ?_⟩
    · exact hnotes ▸ h.standing.append fun n reason hmem => by simp at hmem
    · exact hnotes ▸ h.heeded.append_of_notMem fun n call hmem => by simp at hmem
  | stop =>
    refine Ends.seq (destroyed_runDestruction env .graceful core') ?_ fun _ _ => trivial
    intro _ core'' hd
    obtain ⟨hsent, ⟨after, hnotes', hafter⟩, hcalls⟩ := hd
    rw [hexitTx, h.exitTx] at hsent
    rw [hnotes, List.append_assoc] at hnotes'
    exact Ends.pure (EndedBy.asked hsent
      ⟨core.notes, _, after, hnotes', h.standing, h.heeded, hafter, hcalls⟩)

/-- User code that was entered from a running looper has come back, or it was
not needed at all. -/
def Back (call : Call) (o : Outcome Flow) (core' : LooperCore H) : Prop :=
  match o with
  | .done flow => (∃ core, Running core ∧ core' = core.note (.returned call flow)) ∨
      flow = .cont ∧ Running core'
  | .panicked => Running core'

theorem back_enter {E : Type} {perform : E → Loop H (Except Backpressure Unit)}
    {direct : Bool}
    (hperform : ∀ effect, Moves (WorksWith direct) (WorksWith direct) (perform effect))
    (code : H → Script E H) (h : Running core) :
    Ends (enter perform call code) core (Back call) := by
  apply (ends_entered hperform code core).mono
  intro o core' ho
  obtain ⟨core₁, hworks, ho⟩ := ho
  have h₁ : Running core₁ := (h.log _).worksWith hworks
  cases o with
  | done flow => exact .inl ⟨core₁, h₁, ho⟩
  | panicked =>
    subst ho
    exact h₁.log _

theorem back_invoke (code : H → Callback H) (h : Running core) :
    Ends (invoke env call code) core (Back call) := back_enter (works_perform env) code h

theorem post_back (hback : Back call (.done flow) core) (hworks : Works core core')
    (hnotes : core'.notes = core.notes) (htrace : core'.trace = core.trace) :
    Ends (flowToOutcome env flow) core' (PostBy call) := by
  obtain ⟨core₁, hrunning, rfl⟩ | ⟨rfl, hrunning⟩ := hback
  · refine post_flowToOutcome env hrunning ?_ hworks.exited hworks.exitTx
    rw [hnotes, htrace]
    rfl
  · exact Ends.pure (hrunning.works hworks)

theorem post_guarded {enter : Loop H Flow} (h : Ends enter core (Back call)) :
    Ends (do
      match ← enter.catchUnwind with
      | some flow => flowToOutcome env flow
      | none => failed env) core (PostBy call) := by
  apply Ends.bind
  apply Ends.catchUnwind
  apply h.mono
  intro o core₁ ho
  cases o with
  | done flow => exact post_back env ho (.silent rfl rfl rfl rfl) rfl rfl
  | panicked => exact post_failed env ho

theorem post_dispatch (callback : H → Callback H) (h : Running core) :
    Ends (dispatch env call callback) core (PostBy call) := by
  apply Ends.gets
  rw [h.exited]
  exact post_guarded env (back_invoke env callback h)

theorem post_connectionLost (h : Running core) : Ends (connectionLost env) core Post := by
  refine Ends.seq (post_dispatch env env.handler.disconnected h) ?_ fun _ _ => trivial
  intro outcome core' hpost
  cases outcome with
  | cont => exact hpost
  | exit reason =>
    cases hpost with
    | panicked hexitTx hd => exact .unasked hexitTx hd
    | asked hexitTx hd =>
      refine Ended.corrected ?_ hd
      show core'.exitTx ++ _ = _
      rw [hexitTx]
      rfl

theorem back_fire (token : Token) (code : DispatchEntry H → H → Callback H) {event : Event}
    (hevent : isWork event) (h : Running core) :
    Ends (fire env token call code event) core fun o core' =>
      match o with
      | .done (some flow) => Back call (.done flow) core'
      | .done none => Running core'
      | .panicked => Running core' := by
  apply Ends.gets
  apply Ends.gets
  split
  · apply Ends.modify
    refine Ends.seq (back_invoke env _ (h.works (.silent rfl rfl rfl rfl))) ?_ fun _ hback => hback
    exact fun flow core' hback => Ends.pure hback
  · apply Ends.gets
    split
    · apply Ends.modify
      have hremoved : Running (removeAsync (core.primaryConnection, token) core) :=
        h.works (.silent rfl rfl rfl rfl)
      refine Ends.seq (works_settle token _ hevent _) ?_ fun _ hworks => hremoved.works hworks
      exact fun _ core' hworks => Ends.pure (.inr ⟨rfl, hremoved.works hworks⟩)
    · exact Ends.pure h

theorem post_dispatchResolution (token : Token) (code : DispatchEntry H → H → Callback H)
    {event : Event} (hevent : isWork event) (h : Running core) :
    Ends (dispatchResolution env token (fire env token call code event)) core (PostBy call) := by
  apply Ends.bind
  apply Ends.catchUnwind
  apply (back_fire env token code hevent h).mono
  intro o core₁ ho
  cases o with
  | panicked => exact post_failed env ho
  | done result =>
    cases result with
    | none => exact Ends.pure ho
    | some flow =>
      apply Ends.modify
      exact post_back env ho (.silent rfl rfl rfl rfl) rfl rfl

theorem post_dispatchNotification (sessionId : UInt16) (inner : Bytes) (h : Running core) :
    Ends (dispatchNotification env sessionId inner) core Post := by
  apply Ends.modify
  split
  · exact Ends.pure (h.log _)
  · exact (post_guarded env (back_invoke env _ (h.log _))).mono fun _ _ hpost =>
      hpost.post Call.noConfusion

theorem back_serveRequest (direct : Bool) (sessionId : UInt16) (token : Token) (inner : Bytes)
    (h : Running core) :
    Ends (serveRequest env direct sessionId token inner) core
      (Back (.receiveRequest sessionId token inner)) := by
  unfold serveRequest
  split
  · refine Ends.seq (works_sendFailed env sessionId token core) ?_ fun _ hworks => h.works hworks
    exact fun _ _ hworks => Ends.pure (.inr ⟨rfl, h.works hworks⟩)
  · refine Ends.seq (works_openPort sessionId token inner core) ?_ fun _ hworks => h.works hworks
    exact fun port _ hworks => back_enter (works_performCtx env direct _) _ (h.works hworks)

theorem post_dispatchFrame (direct : Bool) (sessionId : UInt16) (frame : ServiceFrame)
    (h : Running core) : Ends (dispatchFrame env direct sessionId frame) core Post := by
  cases frame with
  | notification inner => exact post_dispatchNotification env sessionId inner h
  | request token inner =>
    apply Ends.modify
    have hback := back_serveRequest env direct sessionId token inner
      (h.log (.handed sessionId (.request token inner)))
    exact (post_guarded env hback).mono fun _ _ hpost => hpost.post Call.noConfusion
  | reply token bytes =>
    exact (post_dispatchResolution env token _ rfl h).mono fun _ _ hpost =>
      hpost.post Call.noConfusion
  | failed token =>
    exact (post_dispatchResolution env token _ rfl h).mono fun _ _ hpost =>
      hpost.post Call.noConfusion

theorem post_handle (msg : LooperMessage) (h : Running core) :
    Ends (handle env msg) core Post := by
  cases msg with
  | service sessionId payload =>
    show Ends (dispatchService env sessionId payload) core Post
    unfold dispatchService
    split
    · exact Ends.pure h
    · exact post_dispatchFrame env false sessionId (.notification _) h
    · exact post_dispatchFrame env false sessionId (.request _ _) h
    · exact post_dispatchFrame env false sessionId (.reply _ _) h
    · exact post_dispatchFrame env false sessionId (.failed _) h
  | newConnection registers => exact Ends.pure h
  | localRevoke sessionId =>
    refine Ends.seq (works_sendControl env _ core) ?_ fun _ _ => trivial
    exact fun _ _ hworks => Ends.pure (h.works hworks)
  | control msg =>
    cases msg with
    | lifecycle msg =>
      exact (post_dispatch env _ h).mono fun _ _ hpost => hpost.post Call.noConfusion
    | serviceTeardown sessionId reason =>
      refine Ends.seq (running_dispatchTeardown env sessionId h) ?_ fun _ _ => trivial
      exact fun _ _ hrunning => Ends.pure hrunning
    | paneExited address reason =>
      exact (post_dispatch env _ h).mono fun _ _ hpost => hpost.post Call.noConfusion
    | _ => exact Ends.pure h

theorem Destroyed.enqueues {stopped : Option Call} (h : Destroyed reason stopped core)
    (set : HashSet UInt16) : Destroyed reason stopped { core with subscriberEnqueues := set } := h

theorem post_connectSubscriber (sessionId : UInt16) (h : Running core) :
    Ends (connectSubscriber env sessionId) core Post := by
  refine Ends.seq (works_lockEnqueues _ core) ?_ fun _ _ => trivial
  intro _ core₁ hworks
  refine Ends.seq (post_dispatch env _ (h.works hworks)) ?_ fun _ _ => trivial
  intro outcome core₂ hpost
  have hpost' : Post (.done outcome) core₂ := hpost.post Call.noConfusion
  apply Ends.bind
  apply Ends.gets
  split
  · trivial
  · cases outcome with
    | cont => exact Running.works hpost' (.silent rfl rfl rfl rfl)
    | exit reason =>
      cases hpost' with
      | unasked hexitTx hd => exact .unasked hexitTx (hd.enqueues _)
      | asked call hcall hexitTx hd => exact .asked call hcall hexitTx (hd.enqueues _)
      | corrected hexitTx hd => exact .corrected hexitTx (hd.enqueues _)

theorem post_exec (op : Op) (h : Running core) : Ends (op.exec env) core Post := by
  cases op with
  | handle msg => exact post_handle env msg h
  | service direct sessionId frame => exact post_dispatchFrame env direct sessionId frame h
  | tearDown sessionId reason =>
    refine Ends.seq (running_dispatchTeardown env sessionId h) ?_ fun _ _ => trivial
    exact fun _ _ hrunning => (post_dispatch env _ hrunning).mono fun _ _ hpost =>
      hpost.post Call.noConfusion
  | connectSubscriber sessionId => exact post_connectSubscriber env sessionId h
  | syncRequest req =>
    refine Ends.seq (works_processSyncRequest env req core) ?_ fun _ _ => trivial
    exact fun _ _ hworks => Ends.pure (h.works hworks)
  | write payload =>
    have hwrite : Moves Works Works (Functor.discard (trySend env 0 payload)) :=
      Moves.bind (works_trySend env 0 payload) fun _ => Moves.pure _
    refine Ends.seq (hwrite core) ?_ fun _ _ => trivial
    exact fun _ _ hworks => Ends.pure (h.works hworks)

theorem ended_unasked (h : Running core) (reason : ExitReason) :
    Ends (do runDestruction env reason; return reason) core
      (Leaves some Running Ended fun _ => True) :=
  Ends.seq (unasked_runDestruction env h reason)
    (fun _ _ hd => Ends.pure (Ended.unasked hd.1 hd.2)) fun _ _ => trivial

theorem ended_channelClosed (h : Running core) :
    Ends (channelClosed env) core (Leaves some Running Ended fun _ => True) := by
  refine Ends.seq (post_connectionLost env h) ?_ fun _ _ => trivial
  intro outcome core' hpost
  cases outcome with
  | exit reason => exact Ends.pure hpost
  | cont => exact ended_unasked env hpost .disconnected

theorem rules_running : Rules env Running Ended fun _ => True :=
  ⟨fun op _ h => post_exec env op h, fun _ h => ended_channelClosed env h,
    fun _ h => ended_unasked env h .infraError⟩

end Pane.LooperHistory
