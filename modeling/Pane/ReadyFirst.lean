import Pane.ArrivalOrder

namespace Pane.ReadyFirst

open Pane.HashTable Pane.Messages Pane.Callbacks Pane.Unwinding Pane.LooperState
open Pane.CoreDispatch Pane.CoreRequest Pane.Looper Pane.CoreRuns Pane.LooperPlan
open Pane.ContextEffects Pane.EventFilters Pane.BatchPhases Pane.ArrivalOrder Pane.PostcardFormat

def handlerCall : Event → Option Call
  | .called (.onReply ..) => none
  | .called (.onFailed _) => none
  | .called call => some call
  | _ => none

def firstCall (trace : List Event) : Option Call := trace.findSome? handlerCall

def ready : Input := .message (.control (.lifecycle .ready))

/-- A request of another thread, which does not come from the server. -/
def isSync : Input → Bool
  | .sync _ => true
  | _ => false

/-- What is dispatched before the lifecycle messages of its batch. -/
def preempts : Input → Bool
  | .message (.control (.serviceTeardown ..)) => true
  | .message (.control (.paneExited ..)) => true
  | .message (.control (.interestAccepted ..)) => true
  | _ => false

def opening (ticks : List Tick) : Option Tick := ticks.find? fun tick => tick.inputs.any (!isSync ·)

section Traces

variable {H : Type} (env : Env H) {core core' : LooperCore H}

def Starts (call : Call) (core : LooperCore H) : Prop :=
  ∀ c, firstCall core.trace = some c → c = call

theorem firstCall_of_grown (h : Grown core core') {call : Call}
    (hfirst : firstCall core.trace = some call) : firstCall core'.trace = some call := by
  obtain ⟨es, hes⟩ := h
  rw [← hes, firstCall, List.findSome?_append]
  rw [firstCall] at hfirst
  rw [hfirst]
  rfl

def Calls (call : Option Call) (e : Event) : Prop := ∀ c, handlerCall e = some c → call = some c

theorem admits_calls (call : Option Call) : Admits (Calls call) fun _ => True where
  work e he c hc := by cases e <;> simp_all [isWork, handlerCall]
  panicked _ _ _ hc := nomatch hc
  onFailed _ _ hc := nomatch hc
  notes _ _ := trivial

theorem firstCall_of_shows {call : Option Call} (h : Shows (Calls call) core core')
    (hcore : firstCall core.trace = none) {c : Call} (hc : firstCall core'.trace = some c) :
    call = some c := by
  obtain ⟨es, htrace, hes⟩ := h.trace
  rw [firstCall] at hcore
  rw [htrace, firstCall, List.findSome?_append, hcore, Option.none_or] at hc
  obtain ⟨e, he, hcall⟩ := List.exists_of_findSome?_eq_some hc
  exact hes e he c hcall

def isSilent (pc : Postcard) (act : Act) : Prop := ∀ e ∈ ofAct pc act, handlerCall e = none

theorem firstCall_execAll {acts : List Act} (h : ∀ act ∈ acts, isSilent env.pc act)
    (hcore : firstCall core.trace = none) : firstCall (execAll env acts core).2.trace = none := by
  have hmoves : Moves (Shows (Calls none)) (Shows (Calls none)) (execAll env acts) := by
    refine moves_execAll env fun act hact => ?_
    refine only_act env (admits_calls none) act (fun e he c hc => ?_) fun _ _ _ => trivial
    rw [h act hact e he] at hc
    nomatch hc
  cases hfirst : firstCall (execAll env acts core).2.trace with
  | none => rfl
  | some c => nomatch firstCall_of_shows (hmoves.always core) hcore hfirst

theorem grown_of_goes {call : Call} {callback : H → Callback H}
    (h : (dispatch env call callback core).1 = .done .cont) :
    Grown (core.log (.called call)) (dispatch env call callback core).2 := by
  cases hexited : core.exited with
  | false => exact grown_dispatch env callback hexited
  | true =>
    have hexit : dispatch env call callback core = (.done (.exit .failed), core) := by
      show (if core.exited then _ else _ : Loop H DispatchOutcome) core = _
      rw [hexited]
      rfl
    rw [hexit] at h
    nomatch h

def readyAct : Act := .op (.handle (.control (.lifecycle .ready)))

theorem exec_readyAct : readyAct.exec env = (do
    match ← dispatch env (.lifecycle .ready) (env.handler.receive .ready) with
    | .exit reason => return some reason
    | .cont => return none) := rfl

theorem firstCall_readyAct (h : (readyAct.exec env core).1 = .done none) :
    Grown (core.log (.called (.lifecycle .ready))) (readyAct.exec env core).2 := by
  have hgrown : (dispatch env (.lifecycle .ready) (env.handler.receive .ready) core).1 =
      .done .cont → _ := grown_of_goes env
  rw [exec_readyAct, Code.bind_apply] at h ⊢
  cases hdispatch : dispatch env (.lifecycle .ready) (env.handler.receive .ready) core with
  | mk o core' =>
    rw [hdispatch] at h hgrown
    cases o with
    | panicked => cases h
    | done outcome =>
      cases outcome with
      | exit reason => cases h
      | cont => exact hgrown rfl

theorem fail_exits : (Act.fail.exec env core).1 ≠ .done none := by
  have hexec : Act.fail.exec env = (do
      let reason ← infraError env
      return some reason) := rfl
  rw [hexec, Code.bind_apply]
  cases infraError env core with
  | mk o core' =>
    cases o with
    | panicked => exact nofun
    | done reason => exact nofun

def Opens (pc : Postcard) (plan : List Act) : Prop :=
  ∃ silent, (∀ act ∈ silent, isSilent pc act) ∧ (plan = silent ∨
    ∃ act later, plan = silent ++ act :: later ∧ (act = readyAct ∨ act = .fail))

theorem Opens.append {pc : Postcard} {acts plan : List Act} (hacts : ∀ act ∈ acts, isSilent pc act)
    (h : Opens pc plan) : Opens pc (acts ++ plan) := by
  obtain ⟨silent, hsilent, hplan⟩ := h
  refine ⟨acts ++ silent, List.forall_mem_append.mpr ⟨hacts, hsilent⟩, ?_⟩
  obtain rfl | ⟨act, later, rfl, hact⟩ := hplan
  · exact .inl rfl
  · exact .inr ⟨act, later, (List.append_assoc ..).symm, hact⟩

theorem starts_cons {act : Act} (hact : act = readyAct ∨ act = .fail) (later : List Act)
    (hcore : firstCall core.trace = none) :
    Starts (.lifecycle .ready) (execAll env (act :: later) core).2 := by
  have hshows : Shows (Calls (some (.lifecycle .ready))) core (act.exec env core).2 := by
    refine (only_act env (admits_calls _) act ?_ fun _ _ _ => trivial).always core
    obtain rfl | rfl := hact
    · intro e he c hc
      rw [List.mem_singleton.mp he] at hc
      exact hc
    · exact nofun
  have hstarts : Starts (.lifecycle .ready) (act.exec env core).2 := fun c hc =>
    (Option.some.inj (firstCall_of_shows hshows hcore hc)).symm
  have hgoes : (act.exec env core).1 = .done none →
      firstCall (act.exec env core).2.trace = some (.lifecycle .ready) := by
    intro hnone
    obtain rfl | rfl := hact
    · refine firstCall_of_grown (firstCall_readyAct env hnone) ?_
      rw [firstCall] at hcore ⊢
      rw [LooperCore.log, List.findSome?_append, hcore]
      rfl
    · exact absurd hnone (fail_exits env)
  obtain ⟨core₁, hexec, hall, -⟩ | ⟨-, hall, -⟩ := execAll_cons env act later core
  · have hlater := (related_of_visited (R := Grown) env (grown_act env) later core₁).1
    rw [hexec] at hgoes
    rw [hall]
    intro c hc
    rw [firstCall_of_grown hlater (hgoes rfl)] at hc
    exact (Option.some.inj hc).symm
  · rw [hall]
    exact hstarts

theorem starts_of_opens {plan : List Act} (h : Opens env.pc plan)
    (hcore : firstCall core.trace = none) :
    Starts (.lifecycle .ready) (execAll env plan core).2 := by
  obtain ⟨silent, hsilent, hplan⟩ := h
  have hnone := firstCall_execAll env hsilent hcore
  have hstarts : Starts (.lifecycle .ready) (execAll env silent core).2 := by
    intro c hc
    rw [hnone] at hc
    nomatch hc
  obtain rfl | ⟨act, later, rfl, hact⟩ := hplan
  · exact hstarts
  · rw [execAll_append, Code.orNext]
    cases hexec : execAll env silent core with
    | mk o core₁ =>
      rw [hexec] at hnone hstarts
      cases o with
      | panicked => exact hstarts
      | done exit =>
        cases exit with
        | some reason => exact hstarts
        | none => exact starts_cons env hact later hnone

end Traces

section Plans

variable {pc : Postcard}

theorem isSilent_map {α : Type} {f : α → Act} (h : ∀ a, isSilent pc (f a)) (as : List α) :
    ∀ act ∈ as.map f, isSilent pc act := by
  intro act hact
  obtain ⟨a, -, rfl⟩ := List.mem_map.mp hact
  exact h a

theorem isSilent_sync (req : SyncRequest) : isSilent pc (.op (.syncRequest req)) :=
  fun _ h => absurd h List.not_mem_nil

theorem isSilent_reply (r : UInt16 × Token × Bytes) :
    isSilent pc (.op (.service false r.1 (.reply r.2.1 r.2.2))) := by
  intro e he
  rw [List.mem_singleton.mp he]
  rfl

theorem isSilent_failed (r : UInt16 × Token) :
    isSilent pc (.op (.service false r.1 (.failed r.2))) :=
  fun _ h => absurd h List.not_mem_nil

theorem collect_syncs (pc : Postcard) {inputs : List Input}
    (h : ∀ input ∈ inputs, isSync input) (b : Batch) : ∃ reqs,
      inputs.foldl (collectInput pc) b = { b with syncRequests := b.syncRequests ++ reqs } := by
  induction inputs generalizing b with
  | nil => exact ⟨[], by rw [List.append_nil]; rfl⟩
  | cons input inputs ih =>
    rw [List.forall_mem_cons] at h
    cases input with
    | sync req =>
      obtain ⟨reqs, hreqs⟩ := ih h.2 { b with syncRequests := b.syncRequests ++ [req] }
      exact ⟨req :: reqs, by rw [List.foldl_cons, collectInput, hreqs, List.append_assoc]; rfl⟩
    | message msg => cases h.1
    | pulse => cases h.1
    | closed => cases h.1

theorem tickPlan_syncs (pc : Postcard) {tick : Tick} (h : ∀ input ∈ tick.inputs, isSync input)
    (sharedWriter : Bool) :
    (∀ act ∈ (tickPlan pc ⟨Batch.new, sharedWriter⟩ tick).1, isSilent pc act) ∧
      ∃ sharedWriter', (tickPlan pc ⟨Batch.new, sharedWriter⟩ tick).2 =
        ⟨Batch.new, sharedWriter'⟩ := by
  obtain ⟨reqs, hreqs⟩ := collect_syncs pc h Batch.new
  rw [tickPlan]
  split
  · refine ⟨List.forall_mem_singleton.mpr (List.forall_mem_nil _), sharedWriter, rfl⟩
  · dsimp only
    rw [hreqs]
    split
    next hempty =>
      have hnil : reqs = [] := by simpa [Batch.isEmpty, Batch.new] using hempty
      rw [hnil]
      exact ⟨List.forall_mem_nil _, sharedWriter, rfl⟩
    · refine ⟨?_, _, rfl⟩
      have hacts : (batchPlan tick.elapsed
          ⟨{ Batch.new with syncRequests := reqs }, sharedWriter⟩).1 =
          reqs.map fun r => .op (.syncRequest r) := List.append_nil _
      exact hacts ▸ isSilent_map isSilent_sync reqs

def lifecycleOf : Input → Option LifecycleMessage
  | .message (.control (.lifecycle msg)) => some msg
  | .pulse => some .pulse
  | _ => none

def exitedOf : Input → Option (Address × ExitReason)
  | .message (.control (.paneExited address reason)) => some (address, reason)
  | _ => none

theorem collectInput_lifecycle (pc : Postcard) (b : Batch) (input : Input) :
    (collectInput pc b input).lifecycle = b.lifecycle ++ (lifecycleOf input).toList ∧
      (collectInput pc b input).paneExited = b.paneExited ++ (exitedOf input).toList := by
  have hnone : b.lifecycle = b.lifecycle ++ [] ∧ b.paneExited = b.paneExited ++ [] :=
    ⟨(List.append_nil _).symm, (List.append_nil _).symm⟩
  cases input with
  | sync req => exact hnone
  | closed => exact hnone
  | pulse => exact ⟨rfl, hnone.2⟩
  | message msg =>
    cases msg with
    | newConnection registers => exact hnone
    | localRevoke sessionId =>
      rw [collectInput, Batch.collect, Batch.collectRevoke]
      split <;> exact hnone
    | service sessionId payload =>
      rw [collectInput, Batch.collect]
      split
      · exact hnone
      next frame _ => cases frame <;> exact hnone
    | control msg =>
      cases msg with
      | lifecycle msg => exact ⟨rfl, hnone.2⟩
      | paneExited address reason => exact ⟨hnone.1, rfl⟩
      | _ => exact hnone

theorem foldl_lifecycle (pc : Postcard) (inputs : List Input) (b : Batch) :
    let b' := inputs.foldl (collectInput pc) b
    b'.lifecycle = b.lifecycle ++ inputs.filterMap lifecycleOf ∧
      b'.paneExited = b.paneExited ++ inputs.filterMap exitedOf := by
  induction inputs generalizing b with
  | nil => exact ⟨(List.append_nil _).symm, (List.append_nil _).symm⟩
  | cons input inputs ih =>
    obtain ⟨hlifecycle, hexited⟩ := collectInput_lifecycle pc b input
    obtain ⟨hlifecycle', hexited'⟩ := ih (collectInput pc b input)
    dsimp only
    rw [List.foldl_cons, hlifecycle', hexited', hlifecycle, hexited, List.append_assoc,
      List.append_assoc]
    constructor
    · cases h : lifecycleOf input <;> simp [h]
    · cases h : exitedOf input <;> simp [h]

theorem opens_tickPlan {tick : Tick} {syncs rest : List Input}
    (hinputs : tick.inputs = syncs ++ ready :: rest) (hsyncs : ∀ input ∈ syncs, isSync input)
    (halone : ∀ input ∈ tick.inputs, preempts input = false) (sharedWriter : Bool)
    (later : List Act) :
    Opens pc ((tickPlan pc ⟨Batch.new, sharedWriter⟩ tick).1 ++ later) := by
  rw [tickPlan]
  split
  · exact ⟨[], List.forall_mem_nil _, .inr ⟨.fail, later, rfl, .inr rfl⟩⟩
  · dsimp only
    generalize hb : tick.inputs.foldl (collectInput pc) Batch.new = b
    have hcollected := hb ▸ collected_foldl pc tick.inputs Batch.new
    have hlifecycle := hb ▸ foldl_lifecycle pc tick.inputs Batch.new
    have hnone {α : Type} {f : Input → Option α} (hf : ∀ input, preempts input = false →
        f input = none) : tick.inputs.filterMap f = [] :=
      List.filterMap_eq_nil_iff.mpr fun input hinput => hf input (halone input hinput)
    have hteardowns : b.teardowns = [] :=
      hcollected.teardowns.trans (hnone fun input h => by
        unfold teardownOf
        split
        · cases h
        · rfl)
    have hexited : b.paneExited = [] :=
      hlifecycle.2.trans (hnone fun input h => by
        unfold exitedOf
        split
        · cases h
        · rfl)
    have hconnected : b.subscriberConnected = [] :=
      hcollected.subscriberConnected.trans (hnone fun input h => by
        unfold acceptedOf
        split
        · cases h
        · rfl)
    obtain ⟨msgs, hmsgs⟩ : ∃ msgs, b.lifecycle = .ready :: msgs := by
      have hquiet : syncs.filterMap lifecycleOf = [] := by
        refine List.filterMap_eq_nil_iff.mpr fun input hinput => ?_
        have hsync := hsyncs input hinput
        cases input with
        | sync req => rfl
        | _ => cases hsync
      refine ⟨rest.filterMap lifecycleOf, hlifecycle.1.trans ?_⟩
      rw [hinputs, List.filterMap_append, hquiet]
      rfl
    rw [if_neg (by simp [Batch.isEmpty, hmsgs])]
    rw [batchPlan, frameworkPlan]
    dsimp only
    rw [hteardowns, hexited, hconnected, hmsgs]
    simp only [List.append_assoc, List.map_nil, List.nil_append, List.map_cons, List.cons_append]
    refine Opens.append (isSilent_map isSilent_sync _) ?_
    refine Opens.append (isSilent_map isSilent_reply _) ?_
    refine Opens.append (isSilent_map isSilent_failed _) ?_
    exact ⟨[], List.forall_mem_nil _, .inr ⟨readyAct, _, rfl, .inl rfl⟩⟩

theorem opens_runPlan {ticks : List Tick}
    (hready : (ticks.flatMap Tick.inputs).find? (!isSync ·) = some ready)
    (halone : ∀ tick, opening ticks = some tick → ∀ input ∈ tick.inputs, preempts input = false)
    (sharedWriter : Bool) : Opens pc (runPlan pc ⟨Batch.new, sharedWriter⟩ ticks) := by
  induction ticks generalizing sharedWriter with
  | nil => nomatch hready
  | cons tick ticks ih =>
    rw [runPlan]
    rw [List.flatMap_cons, List.find?_append] at hready
    cases hfirst : tick.inputs.find? (!isSync ·) with
    | none =>
      rw [hfirst, Option.none_or] at hready
      have hsyncs : ∀ input ∈ tick.inputs, isSync input := fun input hinput => by
        simpa using List.find?_eq_none.mp hfirst input hinput
      obtain ⟨hsilent, sharedWriter', hstate⟩ := tickPlan_syncs pc hsyncs sharedWriter
      rw [hstate]
      refine Opens.append hsilent (ih hready (fun t ht => halone t ?_) sharedWriter')
      rw [opening, List.find?_cons_of_neg]
      · exact ht
      · simpa using hsyncs
    | some input =>
      rw [hfirst, Option.some_or] at hready
      obtain rfl := Option.some.inj hready
      obtain ⟨-, syncs, rest, hinputs, hsyncs⟩ := List.find?_eq_some_iff_append.mp hfirst
      refine opens_tickPlan hinputs (fun input hinput => ?_) (halone tick ?_) sharedWriter _
      · simpa using hsyncs input hinput
      · rw [opening, List.find?_cons_of_pos]
        rw [hinputs]
        simp [ready, isSync]

end Plans

variable {H : Type}

/-- If `ready` is the first message from the server, it is the first call, provided
that no teardown, no exit of a pane and no subscriber is taken in the same tick. -/
theorem ready_comes_first (env : Env H) (handler : H) (primaryConnection : PeerScope)
    (setupFails : Bool) (ticks : List Tick)
    (hready : (ticks.flatMap Tick.inputs).find? (!isSync ·) = some ready)
    (halone : ∀ tick, opening ticks = some tick → ∀ input ∈ tick.inputs, preempts input = false)
    (call : Call) (hcall : firstCall (run env setupFails ticks
      (LooperCore.new handler primaryConnection)).2.trace = some call) :
    call = .lifecycle .ready := by
  have hplan : Opens env.pc
      (if setupFails then [.fail] else runPlan env.pc ⟨Batch.new, false⟩ ticks) := by
    split
    · exact ⟨[], nofun, .inr ⟨.fail, [], rfl, .inr rfl⟩⟩
    · exact opens_runPlan hready halone false
  rw [run_plan] at hcall
  exact starts_of_opens env hplan rfl call hcall

theorem ready_comes_first_notification :
    let run := run (Env.idle postcard) false
      [Tick.of [.sync ⟨1, [7]⟩], Tick.of [ready, notifyFive]] (LooperCore.new () ⟨1⟩)
    firstCall run.2.trace = some (.lifecycle .ready) := by
  intro run
  obtain ⟨call, hcall⟩ : ∃ call, firstCall run.2.trace = some call := ⟨_, rfl⟩
  have hfirst := ready_comes_first (Env.idle postcard) () ⟨1⟩ false
    [Tick.of [.sync ⟨1, [7]⟩], Tick.of [ready, notifyFive]] rfl
    (fun tick htick => by
      obtain rfl := Option.some.inj htick
      decide) call hcall
  rw [hcall, hfirst]

def accepted : Input := .message (.control (.interestAccepted ⟨List.replicate 16 0, rfl⟩ 5 1))

def paneGone : Input := .message (.control (.paneExited (.local 2) .graceful))

def tornDown : Input := .message (.control (.serviceTeardown 5 .serviceRevoked))

/-- Each of the three is told to the handler before `ready`, though `ready` came
first. -/
theorem ready_preempted :
    let first input := firstCall (run (Env.idle postcard) false [Tick.of [ready, input]]
      (LooperCore.new () ⟨1⟩)).2.trace
    first accepted = some (.subscriberConnected 5) ∧
    first tornDown = some (.subscriberDisconnected 5 .serviceRevoked) ∧
    first paneGone = some (.paneExited (.local 2) .graceful) := by
  decide +kernel

end Pane.ReadyFirst
