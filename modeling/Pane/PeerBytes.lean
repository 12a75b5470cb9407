import Pane.LooperHistory
import Pane.LooperPlan
import Pane.PanicContainment

namespace Pane.PeerBytes

open Pane.HashTable Pane.Messages Pane.Correlator Pane.Callbacks Pane.Unwinding Pane.LooperState
open Pane.CoreDispatch Pane.CoreRequest Pane.Looper Pane.CoreRuns Pane.LooperPlan
open Pane.CallbackEffects Pane.ContextEffects Pane.LooperHistory Pane.PostcardFormat

variable {H : Type} (env : Env H) {core : LooperCore H} {direct : Bool} {sessionId : UInt16}
  {frame : ServiceFrame}

def Mild (m : Loop H Flow) (core : LooperCore H) : Prop := Ends m core fun o _ => o = .done .cont

def isPanic {E : Type} : Script E H → Bool
  | .panic _ => true
  | _ => false

/-- The code of the handler that a frame leads to neither panics nor stops. The
code for a reply comes after the decoding of the reply. -/
def OwnCodeMild (direct : Bool) (sessionId : UInt16) (core : LooperCore H) : ServiceFrame → Prop
  | .notification inner => ∀ receiver body receive,
      env.serviceDispatch.receivers.lookup sessionId = some receiver →
      inner = receiver.tag :: body → receiver.receive body = some receive →
      Mild (invoke env (.receive sessionId inner) receive)
        (core.log (.handed sessionId (.notification inner)))
  | .request token inner => ∀ code,
      (env.serviceDispatch.requestReceivers.lookup sessionId).bind (·.accept inner) = some code →
      Mild (do
        let port ← openPort sessionId token inner
        let call := .receiveRequest sessionId token inner
        enter (performCtx env direct call) call (code port))
        (core.log (.handed sessionId (.request token inner)))
  | .reply token bytes => ∀ entry,
      core.dispatch.entries.lookup (core.primaryConnection, token) = some entry →
      isPanic (entry.onReply bytes core.handler) = false →
      Mild (invoke env (.onReply token bytes) (entry.onReply bytes))
        (removeEntry (core.primaryConnection, token) core)
  | .failed token => ∀ entry,
      core.dispatch.entries.lookup (core.primaryConnection, token) = some entry →
      Mild (invoke env (.onFailed token) entry.onFailed)
        (removeEntry (core.primaryConnection, token) core)

def Undecodable (sessionId : UInt16) (core : LooperCore H) : ServiceFrame → Prop
  | .notification inner => ∃ receiver body,
      env.serviceDispatch.receivers.lookup sessionId = some receiver ∧
      inner = receiver.tag :: body ∧ receiver.receive body = none
  | .request _ _ => False
  | .reply token bytes => ∃ entry,
      core.dispatch.entries.lookup (core.primaryConnection, token) = some entry ∧
      isPanic (entry.onReply bytes core.handler) = true
  | .failed _ => False

def Abandoned (token : Token) (core : LooperCore H) : Prop :=
  core.dispatch.entries.lookup (core.primaryConnection, token) = none ∧
    ∃ entry, core.dispatch.asyncEntries.lookup (core.primaryConnection, token) = some entry ∧
      entry.futureDropped = true

def Lethal (sessionId : UInt16) (core : LooperCore H) (frame : ServiceFrame) : Prop :=
  Undecodable env sessionId core frame ∨
    match frame with
    | .reply token _ => Abandoned token core
    | .failed token => Abandoned token core
    | _ => False

theorem destroying_runDestruction (reason : ExitReason) (core : LooperCore H) :
    Ends (runDestruction env reason) core fun _ core' =>
      (core.trace.length, .destroying reason) ∈ core'.notes := by
  apply Ends.modify
  apply Ends.bind
  apply (fails_cascade env _ _).mono
  intro o core₂ h
  obtain ⟨tokens, core₁, hfails, -, -, -, hnotes₁⟩ := h
  obtain ⟨ns, hnotes, -⟩ := hfails.notes
  have hmem : (core.trace.length, Note.destroying reason) ∈ core₂.notes := by
    rw [hnotes, hnotes₁]
    simp [LooperCore.note]
  cases o with
  | panicked => exact hmem
  | done _ => exact hmem

theorem cont_guarded {m : Loop H Flow} (h : Mild m core) :
    Ends (do
      match ← m.catchUnwind with
      | some flow => flowToOutcome env flow
      | none => failed env) core fun o _ => o = .done .cont := by
  apply Ends.bind
  apply Ends.catchUnwind
  apply Ends.mono h
  intro o core' ho
  subst ho
  exact Ends.pure rfl

theorem destroying_failed (core : LooperCore H) :
    Ends (failed env) core fun _ core' => ∃ n, (n, .destroying .failed) ∈ core'.notes := by
  refine Ends.seq (destroying_runDestruction env .failed core) ?_ fun _ hmem => ⟨_, hmem⟩
  exact fun _ _ hmem => Ends.pure ⟨_, hmem⟩

theorem destroying_guarded {m : Loop H Flow} (h : Ends m core fun o _ => o = .panicked) :
    Ends (do
      match ← m.catchUnwind with
      | some flow => flowToOutcome env flow
      | none => failed env) core fun _ core' => ∃ n, (n, .destroying .failed) ∈ core'.notes := by
  apply Ends.bind
  apply Ends.catchUnwind
  apply h.mono
  intro o core' ho
  subst ho
  exact destroying_failed env core'

theorem panicked_invoke {call : Call} {code : H → Callback H}
    (h : isPanic (code core.handler) = true) :
    Ends (invoke env call code) core fun o _ => o = .panicked := by
  apply ends_enter
  cases hscript : code core.handler with
  | panic h' => rfl
  | ret h' flow => simp [hscript, isPanic] at h
  | act h' e next => simp [hscript, isPanic] at h

theorem mild_ret (call : Call) (core : LooperCore H) :
    Mild (invoke env call fun h => .ret h .cont) core := rfl

theorem run_cases (receiver : ServiceReceiver H) (inner : Bytes) :
    (receiver.run inner = fun h => .ret h .cont) ∨
      ∃ body, inner = receiver.tag :: body ∧
        ((∃ receive, receiver.receive body = some receive ∧ receiver.run inner = receive) ∨
          receiver.receive body = none ∧ receiver.run inner = fun h => .panic h) := by
  cases inner with
  | nil => exact .inl rfl
  | cons first body =>
    by_cases htag : first = receiver.tag
    · subst htag
      refine .inr ⟨body, rfl, ?_⟩
      cases hreceive : receiver.receive body with
      | none => exact .inr ⟨rfl, by funext h; simp [ServiceReceiver.run, hreceive]⟩
      | some receive => exact .inl ⟨receive, rfl, by funext h; simp [ServiceReceiver.run, hreceive]⟩
    · exact .inl (by funext h; simp [ServiceReceiver.run, htag])

theorem cont_fire {token : Token} {call : Call} {code : DispatchEntry H → H → Callback H}
    {event : Event} (hentry : ∀ entry,
      core.dispatch.entries.lookup (core.primaryConnection, token) = some entry →
      Mild (invoke env call (code entry)) (removeEntry (core.primaryConnection, token) core))
    (hasync : ¬ Abandoned token core) :
    Ends (dispatchResolution env token (fire env token call code event)) core
      fun o _ => o = .done .cont := by
  apply Ends.bind
  apply Ends.catchUnwind
  apply Ends.gets
  apply Ends.gets
  split
  · next entry hlookup =>
    apply Ends.modify
    refine Ends.seq (hentry entry hlookup) ?_ ?_
    · rintro flow core' hflow
      cases hflow
      exact rfl
    · exact fun _ h => by cases h
  · next hnone =>
    apply Ends.gets
    split
    · next entry hlookup =>
      apply Ends.modify
      have hkept : entry.futureDropped = false := by
        by_contra hdropped
        exact hasync ⟨hnone, entry, hlookup, by simpa using hdropped⟩
      unfold settle
      rw [hkept]
      rfl
    · rfl

theorem destroying_fire {token : Token} {call : Call} {code : DispatchEntry H → H → Callback H}
    {event : Event} (h : (∃ entry,
      core.dispatch.entries.lookup (core.primaryConnection, token) = some entry ∧
        isPanic (code entry core.handler) = true) ∨ Abandoned token core) :
    Ends (dispatchResolution env token (fire env token call code event)) core
      fun _ core' => ∃ n, (n, .destroying .failed) ∈ core'.notes := by
  apply Ends.bind
  apply Ends.catchUnwind
  apply Ends.gets
  apply Ends.gets
  obtain ⟨entry, hlookup, hpanic⟩ | ⟨hnone, entry, hlookup, hdropped⟩ := h
  · simp only [hlookup]
    apply Ends.modify
    refine Ends.seq (panicked_invoke env hpanic) (fun flow core' hflow => by cases hflow) ?_
    exact fun core' _ => destroying_failed env core'
  · simp only [hnone]
    apply Ends.gets
    simp only [hlookup]
    apply Ends.modify
    apply Ends.bind
    unfold settle
    rw [hdropped]
    exact destroying_failed env _

theorem done_sendFailed (sessionId : UInt16) (token : Token) (core : LooperCore H) :
    Ends (sendFailed env sessionId token) core fun o _ => o = .done () := by
  unfold sendFailed
  split
  · apply Ends.bind
    unfold Ends
    rw [trySend_apply]
    split
    · rfl
    · rfl
  · rfl

theorem cont_of_not_lethal (hown : OwnCodeMild env direct sessionId core frame)
    (h : ¬ Lethal env sessionId core frame) :
    Ends (dispatchFrame env direct sessionId frame) core fun o _ => o = .done .cont := by
  cases frame with
  | notification inner =>
    apply Ends.modify
    split
    · rfl
    · next receiver hlookup =>
      obtain hret | ⟨body, rfl, ⟨receive, hreceive, hrun⟩ | ⟨hnone, -⟩⟩ := run_cases receiver inner
      · rw [hret]
        exact cont_guarded env (mild_ret env _ _)
      · rw [hrun]
        exact cont_guarded env (hown receiver body receive hlookup rfl hreceive)
      · exact absurd (.inl ⟨receiver, body, hlookup, rfl, hnone⟩) h
  | request token inner =>
    apply Ends.modify
    apply cont_guarded
    unfold Mild serveRequest
    split
    · apply Ends.bind
      apply (done_sendFailed env sessionId token _).mono
      intro o core' ho
      subst ho
      rfl
    · next code hcode => exact hown code hcode
  | reply token bytes =>
    refine cont_fire env (fun entry hlookup => hown entry hlookup ?_) fun habandoned => h (.inr habandoned)
    by_contra hpanic
    exact h (.inl ⟨entry, hlookup, by simpa using hpanic⟩)
  | failed token =>
    exact cont_fire env hown fun habandoned => h (.inr habandoned)

theorem destroying_of_lethal (h : Lethal env sessionId core frame) :
    Ends (dispatchFrame env direct sessionId frame) core
      fun _ core' => ∃ n, (n, .destroying .failed) ∈ core'.notes := by
  cases frame with
  | notification inner =>
    obtain ⟨receiver, body, hlookup, rfl, hnone⟩ | hfalse := h
    · apply Ends.modify
      simp only [hlookup]
      apply destroying_guarded
      apply panicked_invoke
      simp [ServiceReceiver.run, hnone, isPanic]
    · exact hfalse.elim
  | request token inner => exact h.elim False.elim False.elim
  | reply token bytes => exact destroying_fire env h
  | failed token => exact destroying_fire env (h.imp False.elim id)

section Runs

variable {act : Act} {acts : List Act}

def isService : Act → Bool
  | .op (.service _ _ _) => true
  | .op (.handle (.service _ _)) => true
  | _ => false

def frameOf (pc : Postcard) : Act → Option (Bool × UInt16 × ServiceFrame)
  | .op (.service direct sessionId frame) => some (direct, sessionId, frame)
  | .op (.handle (.service sessionId payload)) =>
    (pc.frameFromBytes payload).map fun frame => (false, sessionId, frame)
  | _ => none

def ActMild (act : Act) (core : LooperCore H) : Prop :=
  ∀ direct sessionId frame, frameOf env.pc act = some (direct, sessionId, frame) →
    OwnCodeMild env direct sessionId core frame

def ActLethal (act : Act) (core : LooperCore H) : Prop :=
  ∃ direct sessionId frame, frameOf env.pc act = some (direct, sessionId, frame) ∧
    Lethal env sessionId core frame

theorem exec_service (h : isService act) :
    (∃ direct sessionId frame, frameOf env.pc act = some (direct, sessionId, frame) ∧
      act.exec env = Act.exec env (.op (.service direct sessionId frame))) ∨
    frameOf env.pc act = none ∧ act.exec env = (pure none : Loop H (Option ExitReason)) := by
  cases act with
  | close => exact Bool.noConfusion h
  | fail => exact Bool.noConfusion h
  | op o =>
    cases o with
    | service direct sessionId frame => exact .inl ⟨direct, sessionId, frame, rfl, rfl⟩
    | handle msg =>
      cases msg with
      | service sessionId payload =>
        rw [exec_handle_service, frameOf]
        cases env.pc.frameFromBytes payload with
        | none => exact .inr ⟨rfl, rfl⟩
        | some frame => exact .inl ⟨false, sessionId, frame, rfl, rfl⟩
      | _ => exact Bool.noConfusion h
    | _ => exact Bool.noConfusion h

theorem step_service (hservice : isService act) (hrunning : Running core)
    (hmild : ActMild env act core) :
    Ends (act.exec env) core fun o core' =>
      (¬ ActLethal env act core → o = .done none ∧ Running core') ∧
        (ActLethal env act core → o ≠ .done none ∧ ¬ Standing core'.notes) := by
  obtain ⟨direct, sessionId, frame, hframe, hexec⟩ | ⟨hnone, hexec⟩ := exec_service env hservice
  · rw [hexec]
    have hpost := post_dispatchFrame env direct sessionId frame hrunning
    apply Ends.bind
    by_cases hlethal : Lethal env sessionId core frame
    · have hact : ActLethal env act core := ⟨direct, sessionId, frame, hframe, hlethal⟩
      apply ((destroying_of_lethal env hlethal).and hpost).mono
      rintro o core' ⟨⟨n, hmem⟩, hpost⟩
      have hnot : ¬ Standing core'.notes := fun hstanding => hstanding n .failed hmem
      cases o with
      | panicked => exact ⟨fun h => absurd hact h, fun _ => ⟨by simp, hnot⟩⟩
      | done outcome =>
        cases outcome with
        | cont => exact absurd (Running.standing hpost) hnot
        | exit reason => exact ⟨fun h => absurd hact h, fun _ => ⟨by simp, hnot⟩⟩
    · have hact : ¬ ActLethal env act core := by
        rintro ⟨direct', sessionId', frame', hframe', hlethal'⟩
        rw [hframe] at hframe'
        cases hframe'
        exact hlethal hlethal'
      have hcont := cont_of_not_lethal env (hmild direct sessionId frame hframe) hlethal
      apply (hcont.and hpost).mono
      rintro o core' ⟨rfl, hpost⟩
      exact ⟨fun _ => ⟨rfl, hpost⟩, fun h => absurd h hact⟩
  · rw [hexec]
    refine Ends.pure ⟨fun _ => ⟨rfl, hrunning⟩, ?_⟩
    rintro ⟨direct, sessionId, frame, hframe, -⟩
    rw [hnone] at hframe
    exact nomatch hframe

theorem standing_iff (hservice : ∀ act ∈ acts, isService act) (hrunning : Running core)
    (hmild : ∀ v ∈ visited env acts core, ActMild env v.1 v.2) :
    Ends (execAll env acts) core fun o core' =>
      (Standing core'.notes ↔ ∀ v ∈ visited env acts core, ¬ ActLethal env v.1 v.2) ∧
        (Standing core'.notes → o = .done none) := by
  induction acts generalizing core with
  | nil => exact ⟨⟨fun _ v hv => (List.not_mem_nil hv).elim, fun _ => hrunning.standing⟩, fun _ => rfl⟩
  | cons act acts ih =>
    have hact := step_service env (hservice act List.mem_cons_self) hrunning
      (hmild (act, core) List.mem_cons_self)
    unfold Ends at hact ⊢
    obtain ⟨core', hexec, hall, hvisited⟩ | ⟨hne, hall, hvisited⟩ := execAll_cons env act acts core
    · rw [hexec] at hact
      have hlethal : ¬ ActLethal env act core := fun hlethal => (hact.2 hlethal).1 rfl
      rw [hvisited] at hmild
      obtain ⟨hiff, hnone⟩ := ih (fun a ha => hservice a (List.mem_cons_of_mem _ ha))
        (hact.1 hlethal).2 fun v hv => hmild v (List.mem_cons_of_mem _ hv)
      rw [hall, hvisited, List.forall_mem_cons]
      exact ⟨hiff.trans ⟨fun h => ⟨hlethal, h⟩, fun h => h.2⟩, hnone⟩
    · have hlethal : ActLethal env act core := by
        by_contra hmild
        exact hne (hact.1 hmild).1
      have hnot := (hact.2 hlethal).2
      rw [hall, hvisited, List.forall_mem_singleton]
      exact ⟨⟨fun h => absurd h hnot, fun h => absurd hlethal h⟩, fun h => absurd h hnot⟩

structure ServiceOnly (b : Batch) : Prop where
  syncRequests : b.syncRequests = []
  teardowns : b.teardowns = []
  paneExited : b.paneExited = []
  subscriberConnected : b.subscriberConnected = []
  lifecycle : b.lifecycle = []
  ctlWrites : b.ctlWrites = []
  channelClosed : b.channelClosed = false

def isServiceInput : Input → Bool
  | .message (.service _ _) => true
  | _ => false

theorem ServiceOnly.collectInput {b : Batch} (h : ServiceOnly b) (pc : Postcard) {input : Input}
    (hinput : isServiceInput input) : ServiceOnly (collectInput pc b input) := by
  obtain ⟨sessionId, payload, rfl⟩ : ∃ sessionId payload,
      input = .message (.service sessionId payload) := by
    cases input with
    | message msg =>
      cases msg with
      | service sessionId payload => exact ⟨sessionId, payload, rfl⟩
      | _ => exact Bool.noConfusion hinput
    | _ => exact Bool.noConfusion hinput
  rw [Looper.collectInput, Batch.collect]
  cases pc.frameFromBytes payload with
  | none => exact h
  | some frame =>
    cases frame with
    | _ => exact ⟨h.1, h.2, h.3, h.4, h.5, h.6, h.7⟩

theorem ServiceOnly.foldl {b : Batch} (h : ServiceOnly b) (pc : Postcard) {inputs : List Input}
    (hinputs : ∀ input ∈ inputs, isServiceInput input) :
    ServiceOnly (inputs.foldl (Looper.collectInput pc) b) := by
  induction inputs generalizing b with
  | nil => exact h
  | cons input inputs ih =>
    apply ih (h.collectInput pc (hinputs input List.mem_cons_self))
    exact fun i hi => hinputs i (List.mem_cons_of_mem _ hi)

theorem service_inboundPlan (elapsed : Nat → Bool) {state : LoopState}
    (h : ServiceOnly state.batch) :
    (∀ act ∈ (inboundPlan elapsed state).1, isService act) ∧
      ServiceOnly (inboundPlan elapsed state).2.batch := by
  have hrequest (as : List (UInt16 × Token × Bytes)) :
      ∀ act ∈ as.map (requestAct state.sharedWriter), isService act := by
    intro act hact
    obtain ⟨r, -, rfl⟩ := List.mem_map.mp hact
    rfl
  have hnotification (as : List (UInt16 × Bytes)) :
      ∀ act ∈ as.map notificationAct, isService act := by
    intro act hact
    obtain ⟨n, -, rfl⟩ := List.mem_map.mp hact
    rfl
  have hrest (rs : List (UInt16 × Token × Bytes)) (ns : List (UInt16 × Bytes)) :
      ServiceOnly (state.batch.remaining rs ns) := ⟨rfl, rfl, rfl, rfl, rfl, rfl, h.channelClosed⟩
  unfold inboundPlan
  dsimp only
  split
  · exact ⟨hrequest _, hrest _ _⟩
  · split
    · exact ⟨List.forall_mem_append.mpr ⟨hrequest _, hnotification _⟩, hrest _ _⟩
    · rw [h.channelClosed, if_neg Bool.false_ne_true, List.append_nil]
      exact ⟨List.forall_mem_append.mpr ⟨hrequest _, hnotification _⟩, hrest _ _⟩

theorem service_batchPlan (elapsed : Nat → Bool) {state : LoopState}
    (h : ServiceOnly state.batch) :
    (∀ act ∈ (batchPlan elapsed state).1, isService act) ∧
      ServiceOnly (batchPlan elapsed state).2.batch := by
  let state' : LoopState :=
    { state with sharedWriter := state.sharedWriter || state.batch.newConnection = some true }
  have hstate' : ServiceOnly state'.batch := h
  obtain ⟨hinbound, hrest⟩ := service_inboundPlan elapsed hstate'
  refine ⟨?_, hrest⟩
  have hframework : ∀ act ∈ frameworkPlan state.batch, isService act := by
    simp only [frameworkPlan, h.teardowns, h.paneExited, h.subscriberConnected, h.lifecycle,
      List.map_nil, List.append_nil, List.forall_mem_append, List.forall_mem_map]
    exact ⟨fun _ _ => rfl, fun _ _ => rfl⟩
  simp only [batchPlan, h.syncRequests, h.ctlWrites, List.map_nil, List.nil_append]
  exact List.forall_mem_append.mpr ⟨hframework, hinbound⟩

def ServiceTicks (ticks : List Tick) : Prop :=
  ∀ tick ∈ ticks, tick.pollFails = false ∧ ∀ input ∈ tick.inputs, isServiceInput input

theorem service_runPlan (pc : Postcard) {ticks : List Tick} (hticks : ServiceTicks ticks)
    {state : LoopState} (h : ServiceOnly state.batch) :
    ∀ act ∈ runPlan pc state ticks, isService act := by
  induction ticks generalizing state with
  | nil => exact fun act hact => (List.not_mem_nil hact).elim
  | cons tick ticks ih =>
    obtain ⟨⟨hpoll, hinputs⟩, hticks⟩ := List.forall_mem_cons.mp hticks
    have hbatch : ServiceOnly (tick.inputs.foldl (Looper.collectInput pc) state.batch) :=
      h.foldl pc hinputs
    have htick : (∀ act ∈ (tickPlan pc state tick).1, isService act) ∧
        ServiceOnly (tickPlan pc state tick).2.batch := by
      rw [tickPlan, hpoll, if_neg Bool.false_ne_true]
      dsimp only
      split
      · exact ⟨fun act hact => (List.not_mem_nil hact).elim, hbatch⟩
      · exact service_batchPlan tick.elapsed hbatch
    exact List.forall_mem_append.mpr ⟨htick.1, ih hticks htick.2⟩

end Runs

/-- Service messages to a handler whose own code neither panics nor stops, one by
one through `dispatch_service` or in the batches of a looper: the destruction
sequence starts if and only if one of them is lethal when it is dispatched. -/
theorem ended_by_peer_iff (core : LooperCore H) (hrunning : Running core) :
    (∀ msgs : List (UInt16 × Bytes),
      let acts := msgs.map fun m => .op (.handle (.service m.1 m.2))
      (∀ v ∈ visited env acts core, ActMild env v.1 v.2) →
      let run := execAll env acts core
      (Standing run.2.notes ↔ ∀ v ∈ visited env acts core, ¬ ActLethal env v.1 v.2) ∧
        (Standing run.2.notes → run.1 = .done none)) ∧
    (∀ sharedWriter ticks, ServiceTicks ticks →
      let acts := runPlan env.pc ⟨Batch.new, sharedWriter⟩ ticks
      (∀ v ∈ visited env acts core, ActMild env v.1 v.2) →
      let run := mainLoop env ⟨Batch.new, sharedWriter⟩ ticks core
      (Standing run.2.notes ↔ ∀ v ∈ visited env acts core, ¬ ActLethal env v.1 v.2) ∧
        (Standing run.2.notes → run.1 = .done none)) := by
  refine ⟨?_, ?_⟩
  · intro msgs acts hmild
    refine standing_iff env ?_ hrunning hmild
    intro act hact
    obtain ⟨m, -, rfl⟩ := List.mem_map.mp hact
    rfl
  · intro sharedWriter ticks hticks acts hmild
    have hnew : ServiceOnly Batch.new := ⟨rfl, rfl, rfl, rfl, rfl, rfl, rfl⟩
    rw [mainLoop_plan]
    exact standing_iff env (service_runPlan env.pc hticks hnew) hrunning hmild

section Samples

/-- A receiver for an enum of one variant: `postcard` reads the index of the variant
and leaves what follows it unread. -/
def listening : Env Unit :=
  { Env.idle postcard with
    serviceDispatch.receivers := AList.singleton 5 ⟨7, fun body =>
      if (uint32.decode body).map Prod.fst = some 0 then some fun h => .ret h .cont else none⟩ }

theorem mild_listening (inner : Bytes) (core : LooperCore Unit) :
    ActMild listening (notificationAct (5, inner)) core := by
  intro direct sessionId frame hframe
  cases hframe
  intro receiver body receive hlookup hinner hreceive
  have hreceiver : some receiver = some ⟨7, _⟩ := hlookup.symm
  cases hreceiver
  dsimp only at hreceive
  split at hreceive
  · cases hreceive
    exact mild_ret listening _ _
  · exact nomatch hreceive

theorem not_lethal_listening {inner : Bytes}
    (h : (∃ rest, inner = 7 :: 0 :: rest) ∨ inner.head? ≠ some 7) (core : LooperCore Unit) :
    ¬ ActLethal listening (notificationAct (5, inner)) core := by
  rintro ⟨direct, sessionId, frame, hframe, hlethal⟩
  cases hframe
  obtain ⟨receiver, body, hlookup, rfl, hnone⟩ | hfalse := hlethal
  · have hreceiver : some receiver = some ⟨7, _⟩ := hlookup.symm
    cases hreceiver
    obtain ⟨rest, hbody⟩ | hhead := h
    · cases hbody
      exact nomatch hnone
    · exact hhead rfl
  · exact hfalse.elim

def serviceTick (payloads : List Bytes) : Tick :=
  Tick.of (payloads.map fun payload => .message (.service 5 payload))

def strangers : List Tick := [serviceTick [[3, 2, 7, 0], [3, 3, 7, 0, 9], [3, 2, 8, 9], [77]]]

theorem spared_by_strangers :
    let run := mainLoop listening ⟨Batch.new, false⟩ strangers (LooperCore.new () ⟨1⟩)
    run.1 = .done none ∧ Standing run.2.notes := by
  intro run
  have hacts : runPlan postcard ⟨Batch.new, false⟩ strangers =
      [notificationAct (5, [7, 0]), notificationAct (5, [7, 0, 9]),
        notificationAct (5, [8, 9])] := rfl
  have hvisited (v : Act × LooperCore Unit) (hv : v ∈ visited listening
      (runPlan postcard ⟨Batch.new, false⟩ strangers) (LooperCore.new () ⟨1⟩)) :
      ∃ inner : Bytes, ((∃ rest, inner = 7 :: 0 :: rest) ∨ inner.head? ≠ some 7) ∧
        v.1 = notificationAct (5, inner) := by
    have hact := mem_of_visited listening hv
    rw [hacts, List.mem_cons, List.mem_cons, List.mem_singleton] at hact
    obtain hact | hact | hact := hact
    · exact ⟨[7, 0], .inl ⟨[], rfl⟩, hact⟩
    · exact ⟨[7, 0, 9], .inl ⟨[9], rfl⟩, hact⟩
    · exact ⟨[8, 9], .inr (by decide), hact⟩
  have hticks : ServiceTicks strangers := by
    intro tick htick
    rw [strangers, List.mem_singleton] at htick
    subst htick
    exact ⟨rfl, by decide⟩
  obtain ⟨hiff, hnone⟩ := (ended_by_peer_iff listening (LooperCore.new () ⟨1⟩)
    (running_new () ⟨1⟩)).2 false strangers hticks fun v hv => by
      obtain ⟨inner, -, hact⟩ := hvisited v hv
      exact hact ▸ mild_listening inner v.2
  have hstanding := hiff.mpr fun v hv => by
    obtain ⟨inner, hinner, hact⟩ := hvisited v hv
    exact hact ▸ not_lethal_listening hinner v.2
  exact ⟨hnone hstanding, hstanding⟩

/-- A notification whose body does not decode ends the pane. -/
theorem ended_by_notification :
    let run := Looper.run listening false [serviceTick [[3, 2, 7, 9]]] (LooperCore.new () ⟨1⟩)
    run.1 = .done (some .failed) ∧ run.2.exitTx = [.failed] := ⟨rfl, rfl⟩

end Samples

end Pane.PeerBytes
