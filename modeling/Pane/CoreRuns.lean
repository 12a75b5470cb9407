import Pane.Looper
import Pane.Machines

namespace Pane.CoreRuns

open Pane.HashTable Pane.Messages Pane.Correlator Pane.Callbacks Pane.Unwinding Pane.LooperState
open Pane.CoreDispatch Pane.CoreRequest Pane.Looper Pane.Machines

variable {H : Type} (env : Env H)

/-- What the two loops make a core do, one after the other: `LooperCore::run`
handles whole messages, `Looper::run` what its batches were sorted into. -/
inductive Op
  | handle (msg : LooperMessage)
  | syncRequest (req : SyncRequest)
  | service (direct : Bool) (sessionId : UInt16) (frame : ServiceFrame)
  | tearDown (sessionId : UInt16) (reason : TeardownReason)
  | connectSubscriber (sessionId : UInt16)
  | write (payload : Bytes)

def dispatchFrame (direct : Bool) (sessionId : UInt16) : ServiceFrame → Loop H DispatchOutcome
  | .notification inner => dispatchNotification env sessionId inner
  | .request token inner => dispatchRequestWithContext env direct sessionId token inner
  | .reply token replyBytes => dispatchReply env sessionId token replyBytes
  | .failed token => dispatchFailed env sessionId token

def Op.exec : Op → Loop H DispatchOutcome
  | .handle msg => CoreRequest.handle env msg
  | .syncRequest req => do
    processSyncRequest env req
    return .cont
  | .service direct sessionId frame => dispatchFrame env direct sessionId frame
  | .tearDown sessionId reason => Looper.tearDown env sessionId reason
  | .connectSubscriber sessionId => Looper.connectSubscriber env sessionId
  | .write payload => do
    Functor.discard (trySend env 0 payload)
    return .cont

/-- A core that does one thing after the other, as long as it goes on. -/
def cores (starts : LooperCore H → Prop) : Machine (LooperCore H) Op where
  starts := starts
  step core op := match op.exec env core with
    | (.done .cont, core') => some core'
    | _ => none

theorem step_cores {starts : LooperCore H → Prop} {op : Op} {core core' : LooperCore H} :
    (cores env starts).step core op = some core' ↔ op.exec env core = (.done .cont, core') := by
  show (match op.exec env core with | (.done .cont, core') => some core' | _ => none) = _ ↔ _
  split
  · next heq => simp [heq]
  · next hne =>
    refine ⟨fun h => (nomatch h), fun h => ?_⟩
    exact absurd h (hne core')

/-- The states in which a core waits for the next thing to do. -/
abbrev Reachable : LooperCore H → Prop :=
  (cores env fun core => ∃ handler primaryConnection,
    core = LooperCore.new handler primaryConnection).Reachable fun _ _ => True

theorem reachable_new (handler : H) (primaryConnection : PeerScope) :
    Reachable env (LooperCore.new handler primaryConnection) :=
  .start ⟨handler, primaryConnection, rfl⟩

def Handler.idle (H : Type) : Handler H where
  ready h := .ret h .cont
  closeRequested h := .ret h .cont
  disconnected h := .ret h .cont
  pulse h := .ret h .cont
  paneExited _ _ h := .ret h .cont
  subscriberConnected _ h := .ret h .cont
  subscriberDisconnected _ _ h := .ret h .cont

/-- Surroundings in which every frame gets into the write queue. -/
def Env.idle (pc : Postcard) : Env Unit where
  pc := pc
  trySend _ := .ok ()
  order _ := Order.stored _
  handler := Handler.idle Unit
  serviceDispatch := ⟨∅, ∅⟩

section Loops

variable {I : LooperCore H → Prop} {O : ExitReason → LooperCore H → Prop}
  {X : LooperCore H → Prop} {core : LooperCore H}

/-- Code that may leave a loop: `I` holds while the loop goes on, `O` once it is
left, and `X` if a panic leaves it. -/
def Leaves {α : Type} (exit : α → Option ExitReason) (I : LooperCore H → Prop)
    (O : ExitReason → LooperCore H → Prop) (X : LooperCore H → Prop) (o : Outcome α)
    (core : LooperCore H) : Prop :=
  match o with
  | .panicked => X core
  | .done a =>
    match exit a with
    | none => I core
    | some reason => O reason core

def ofOutcome : DispatchOutcome → Option ExitReason
  | .cont => none
  | .exit reason => some reason

def ofResult {α : Type} : Except ExitReason α → Option ExitReason
  | .ok _ => none
  | .error reason => some reason

structure Rules (I : LooperCore H → Prop) (O : ExitReason → LooperCore H → Prop)
    (X : LooperCore H → Prop) : Prop where
  exec : ∀ op core, I core → Ends (Op.exec env op) core (Leaves ofOutcome I O X)
  channelClosed : ∀ core, I core → Ends (channelClosed env) core (Leaves some I O X)
  infraError : ∀ core, I core → Ends (infraError env) core (Leaves some I O X)

variable {env}

theorem Rules.coreRun (h : Rules env I O X) (msgs : List LooperMessage) (hcore : I core) :
    Ends (CoreRequest.run env msgs) core (Leaves some I O X) := by
  induction msgs generalizing core with
  | nil => exact h.channelClosed core hcore
  | cons msg msgs ih =>
    refine Ends.seq (h.exec (.handle msg) core hcore) ?_ fun _ hx => hx
    intro outcome core' ho
    cases outcome with
    | cont => exact ih ho
    | exit reason => exact Ends.pure ho

theorem leaves_untilExit {α : Type} {f : α → Loop H DispatchOutcome}
    (hf : ∀ a core, I core → Ends (f a) core (Leaves ofOutcome I O X)) (as : List α)
    (hcore : I core) : Ends (untilExit f as) core (Leaves id I O X) := by
  induction as generalizing core with
  | nil => exact hcore
  | cons a as ih =>
    refine Ends.bind (Ends.seq (hf a core hcore) ?_ fun _ hx => hx)
    intro outcome core' ho
    cases outcome with
    | cont => exact ih ho
    | exit reason => exact ho

theorem leaves_firstOf {phases : List (Loop H (Option ExitReason))}
    (h : ∀ phase ∈ phases, ∀ core, I core → Ends phase core (Leaves id I O X)) (hcore : I core) :
    Ends (Code.firstOf id phases) core (Leaves id I O X) := by
  induction phases generalizing core with
  | nil => exact hcore
  | cons phase phases ih =>
    refine Ends.seq (h phase List.mem_cons_self core hcore) ?_ fun _ hx => hx
    intro exit core' ho
    cases exit with
    | some reason => exact Ends.pure ho
    | none => exact ih (fun p hp => h p (List.mem_cons_of_mem _ hp)) ho

theorem Rules.frameworkPhases (h : Rules env I O X) (b : Batch) (hcore : I core) :
    Ends (frameworkPhases env b) core (Leaves id I O X) := by
  apply leaves_firstOf ?_ hcore
  intro phase hphase core hcore
  simp only [List.mem_cons, List.not_mem_nil, or_false] at hphase
  obtain rfl | rfl | rfl | rfl | rfl | rfl := hphase
  · refine leaves_untilExit ?_ _ hcore
    exact fun (sessionId, token, bytes) => h.exec (.service false sessionId (.reply token bytes))
  · refine leaves_untilExit ?_ _ hcore
    exact fun (sessionId, token) => h.exec (.service false sessionId (.failed token))
  · refine leaves_untilExit ?_ _ hcore
    exact fun (sessionId, reason) => h.exec (.tearDown sessionId reason)
  · refine leaves_untilExit ?_ _ hcore
    exact fun (address, reason) => h.exec (.handle (.control (.paneExited address reason)))
  · refine leaves_untilExit ?_ _ hcore
    exact fun sessionId => h.exec (.connectSubscriber sessionId)
  · refine leaves_untilExit ?_ _ hcore
    exact fun msg => h.exec (.handle (.control (.lifecycle msg)))

theorem leaves_serve {α : Type} (revoked : HashSet UInt16) (elapsed : Nat → Bool)
    (session : α → UInt16) {deliver : α → Loop H DispatchOutcome}
    (hdeliver : ∀ a core, I core → Ends (deliver a) core (Leaves ofOutcome I O X))
    (dispatched : Nat) (as : List α) (hcore : I core) :
    Ends (serve revoked elapsed session deliver dispatched as) core (Leaves ofResult I O X) := by
  induction as generalizing dispatched core with
  | nil => exact hcore
  | cons a as ih =>
    unfold serve
    split
    · exact ih dispatched hcore
    · refine Ends.seq (hdeliver a core hcore) ?_ fun _ hx => hx
      intro outcome core' ho
      cases outcome with
      | exit reason => exact ho
      | cont =>
        dsimp only
        split
        · exact ho
        · exact ih (dispatched + 1) ho

theorem Rules.inboundPhase (h : Rules env I O X) (elapsed : Nat → Bool) (state : LoopState)
    (hcore : I core) : Ends (inboundPhase env elapsed state) core (Leaves ofResult I O X) := by
  have hrequest : ∀ (r : UInt16 × Token × Bytes) core, I core →
      Ends (dispatchRequestWithContext env state.sharedWriter r.1 r.2.1 r.2.2) core
        (Leaves ofOutcome I O X) := fun (sessionId, token, inner) =>
    h.exec (.service state.sharedWriter sessionId (.request token inner))
  have hnotification : ∀ (n : UInt16 × Bytes) core, I core →
      Ends (dispatchNotification env n.1 n.2) core (Leaves ofOutcome I O X) :=
    fun (sessionId, inner) => h.exec (.service false sessionId (.notification inner))
  unfold Looper.inboundPhase
  refine Ends.seq (leaves_serve _ _ _ hrequest _ _ hcore) ?_ fun _ hx => hx
  intro result core₁ h₁
  cases result with
  | error reason => exact h₁
  | ok served =>
    dsimp only
    split
    · exact h₁
    · refine Ends.seq (leaves_serve _ _ _ hnotification _ _ h₁) ?_ fun _ hx => hx
      intro result core₂ h₂
      cases result with
      | error reason => exact h₂
      | ok served =>
        dsimp only
        split
        · exact h₂
        · split
          · exact Ends.seq (h.channelClosed _ h₂) (fun _ _ ho => Ends.pure ho) fun _ hx => hx
          · exact h₂

theorem leaves_forEach {α : Type} {f : α → Loop H Unit}
    (hf : ∀ a core, I core → Ends (do f a; return .cont) core (Leaves ofOutcome I O X))
    (as : List α) (hcore : I core) :
    Ends (Code.forEach f as) core (Leaves (fun _ => none) I O X) := by
  induction as generalizing core with
  | nil => exact hcore
  | cons a as ih =>
    refine Ends.bind ?_
    have hfa := hf a core hcore
    unfold Ends at hfa ⊢
    rw [Code.bind_apply] at hfa
    cases hm : f a core with
    | mk o core' =>
      rw [hm] at hfa
      cases o with
      | panicked => exact hfa
      | done _ => exact ih hfa

theorem Rules.dispatchBatch (h : Rules env I O X) (elapsed : Nat → Bool) (state : LoopState)
    (hcore : I core) : Ends (dispatchBatch env elapsed state) core (Leaves ofResult I O X) := by
  refine Ends.seq (leaves_forEach (fun req => h.exec (.syncRequest req)) _ hcore) ?_ fun _ hx => hx
  intro _ core₁ h₁
  refine Ends.seq (h.frameworkPhases state.batch h₁) ?_ fun _ hx => hx
  intro exit core₂ h₂
  cases exit with
  | some reason => exact h₂
  | none =>
    have hwrites := leaves_forEach (fun payload => h.exec (.write payload)) state.batch.ctlWrites h₂
    exact Ends.seq hwrites (fun _ _ h₃ => h.inboundPhase elapsed _ h₃) fun _ hx => hx

theorem Rules.tickStep (h : Rules env I O X) (state : LoopState) (tick : Tick) (hcore : I core) :
    Ends (tickStep env state tick) core (Leaves ofResult I O X) := by
  unfold Looper.tickStep
  split
  · exact Ends.seq (h.infraError core hcore) (fun _ _ ho => Ends.pure ho) fun _ hx => hx
  · dsimp only
    split
    · exact hcore
    · exact h.dispatchBatch _ _ hcore

theorem Rules.mainLoop (h : Rules env I O X) (state : LoopState) (ticks : List Tick)
    (hcore : I core) : Ends (mainLoop env state ticks) core (Leaves id I O X) := by
  induction ticks generalizing state core with
  | nil => exact hcore
  | cons tick ticks ih =>
    refine Ends.seq (h.tickStep state tick hcore) ?_ fun _ hx => hx
    intro result core' ho
    cases result with
    | error reason => exact ho
    | ok state' => exact ih state' ho

theorem Rules.looperRun (h : Rules env I O X) (setupFails : Bool) (ticks : List Tick)
    (hcore : I core) : Ends (Looper.run env setupFails ticks) core (Leaves id I O X) := by
  unfold Looper.run
  split
  · exact Ends.seq (h.infraError core hcore) (fun _ _ ho => Ends.pure ho) fun _ hx => hx
  · exact h.mainLoop _ ticks hcore

theorem reachable_looperRun (setupFails : Bool) (ticks : List Tick) (handler : H)
    (primaryConnection : PeerScope) :
    Ends (Looper.run env setupFails ticks) (LooperCore.new handler primaryConnection)
      (Leaves id (Reachable env) (fun _ _ => True) fun _ => True) := by
  have hrules : Rules env (Reachable env) (fun _ _ => True) fun _ => True := by
    refine ⟨fun op core hcore => ?_, fun core _ => ?_, fun core _ => ?_⟩
    · unfold Ends
      cases hexec : op.exec env core with
      | mk o core' =>
        cases o with
        | panicked => trivial
        | done outcome =>
          cases outcome with
          | cont => exact .step op hcore trivial ((step_cores env).mpr hexec)
          | exit reason => trivial
    · unfold Ends
      cases (channelClosed env core).1 <;> trivial
    · unfold Ends
      cases (infraError env core).1 <;> trivial
  exact hrules.looperRun setupFails ticks (reachable_new env handler primaryConnection)

end Loops

end Pane.CoreRuns
