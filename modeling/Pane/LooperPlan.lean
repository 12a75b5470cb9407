import Pane.CoreRuns

namespace Pane.LooperPlan

open Pane.HashTable Pane.Messages Pane.Callbacks Pane.Unwinding Pane.LooperState
open Pane.CoreDispatch Pane.CoreRequest Pane.Looper Pane.CoreRuns

variable {H : Type} (env : Env H) {α β : Type}

/-- What the loops make a core do, with the two ways in which they end by
themselves. -/
inductive Act
  | op (op : Op)
  | close
  | fail

def Act.exec : Act → Loop H (Option ExitReason)
  | .op o => do
    match ← o.exec env with
    | .exit reason => return some reason
    | .cont => return none
  | .close => do
    let reason ← channelClosed env
    return some reason
  | .fail => do
    let reason ← infraError env
    return some reason

theorem exec_handle_service (sessionId : UInt16) (payload : Bytes) :
    Act.exec env (.op (.handle (.service sessionId payload))) =
      match env.pc.frameFromBytes payload with
      | none => pure none
      | some frame => Act.exec env (.op (.service false sessionId frame)) := by
  have hexec : Act.exec env (.op (.handle (.service sessionId payload))) = (do
      match ← dispatchService env sessionId payload with
      | .exit reason => return some reason
      | .cont => return none) := rfl
  rw [hexec, dispatchService]
  cases env.pc.frameFromBytes payload with
  | none => rfl
  | some frame => cases frame <;> rfl

theorem exec_write (payload : Bytes) :
    Act.exec env (.op (.write payload)) = (do let _ ← trySend env 0 payload; return none) := by
  rw [Act.exec, Op.exec]
  generalize trySend env 0 payload = m
  funext core
  rw [Code.bind_apply, Code.bind_apply, Code.bind_apply]
  have hdiscard : Functor.discard m core = Code.andThen m (fun _ => pure ()) core := rfl
  rw [hdiscard, Code.andThen]
  cases m core with
  | mk o core' =>
    cases o with
    | done answer => rfl
    | panicked => rfl

def execAll (acts : List Act) : Loop H (Option ExitReason) := Code.firstOf (Act.exec env) acts

def portion (revoked : HashSet UInt16) (elapsed : Nat → Bool) (session : α → UInt16) :
    Nat → List α → List α × Nat × List α
  | dispatched, [] => ([], dispatched, [])
  | dispatched, a :: rest =>
    if session a ∈ revoked then portion revoked elapsed session dispatched rest
    else if defaultBatchMsgLimit ≤ dispatched + 1 ∨ elapsed (dispatched + 1) then
      ([a], dispatched + 1, rest)
    else
      let later := portion revoked elapsed session (dispatched + 1) rest
      (a :: later.1, later.2)

def requestAct (direct : Bool) (r : UInt16 × Token × Bytes) : Act :=
  .op (.service direct r.1 (.request r.2.1 r.2.2))

def notificationAct (n : UInt16 × Bytes) : Act := .op (.service false n.1 (.notification n.2))

def inboundPlan (elapsed : Nat → Bool) (state : LoopState) : List Act × LoopState :=
  let b := state.batch
  let requests := portion b.revokedSessions elapsed (fun r => r.1) 0 b.requests
  let served := requests.1.map (requestAct state.sharedWriter)
  if requests.2.2 ≠ [] then
    (served, { state with batch := b.remaining requests.2.2 b.notifications })
  else
    let notifications := portion b.revokedSessions elapsed (fun n => n.1) requests.2.1 b.notifications
    let notified := notifications.1.map notificationAct
    if notifications.2.2 ≠ [] then
      (served ++ notified, { state with batch := b.remaining [] notifications.2.2 })
    else
      (served ++ (notified ++ if b.channelClosed then [.close] else []),
        { state with batch := b.remaining [] [] })

def frameworkPlan (b : Batch) : List Act :=
  b.replies.map (fun r => .op (.service false r.1 (.reply r.2.1 r.2.2))) ++
  (b.failed.map (fun r => .op (.service false r.1 (.failed r.2))) ++
  (b.teardowns.map (fun t => .op (.tearDown t.1 t.2)) ++
  (b.paneExited.map (fun p => .op (.handle (.control (.paneExited p.1 p.2)))) ++
  (b.subscriberConnected.map (fun s => .op (.connectSubscriber s)) ++
  b.lifecycle.map (fun m => .op (.handle (.control (.lifecycle m))))))))

def batchPlan (elapsed : Nat → Bool) (state : LoopState) : List Act × LoopState :=
  let b := state.batch
  let inbound := inboundPlan elapsed
    { state with sharedWriter := state.sharedWriter || b.newConnection = some true }
  (b.syncRequests.map (fun r => .op (.syncRequest r)) ++
    (frameworkPlan b ++ (b.ctlWrites.map (fun w => .op (.write w)) ++ inbound.1)), inbound.2)

def tickPlan (pc : Postcard) (state : LoopState) (tick : Tick) : List Act × LoopState :=
  if tick.pollFails then ([.fail], state)
  else
    let batch := tick.inputs.foldl (collectInput pc) state.batch
    if batch.isEmpty then ([], { state with batch })
    else batchPlan tick.elapsed { state with batch }

def runPlan (pc : Postcard) : LoopState → List Tick → List Act
  | _, [] => []
  | state, tick :: ticks =>
    (tickPlan pc state tick).1 ++ runPlan pc (tickPlan pc state tick).2 ticks

def unlessExit (m : Loop H (Option ExitReason)) (k : Loop H (Except ExitReason α)) :
    Loop H (Except ExitReason α) := fun core =>
  match m core with
  | (.done none, core') => k core'
  | (.done (some reason), core') => (.done (.error reason), core')
  | (.panicked, core') => (.panicked, core')

theorem unlessExit_orNext (m n : Loop H (Option ExitReason)) (k : Loop H (Except ExitReason α)) :
    unlessExit (Code.orNext m n) k = unlessExit m (unlessExit n k) := by
  funext core
  unfold unlessExit Code.orNext
  cases m core with
  | mk o core' =>
    cases o with
    | panicked => rfl
    | done exit =>
      cases exit with
      | some reason => rfl
      | none => rfl

theorem execAll_append (acts acts' : List Act) :
    execAll env (acts ++ acts') = Code.orNext (execAll env acts) (execAll env acts') :=
  Code.firstOf_append _ acts acts'

theorem unlessExit_append (acts acts' : List Act) (k : Loop H (Except ExitReason α)) :
    unlessExit (execAll env (acts ++ acts')) k =
      unlessExit (execAll env acts) (unlessExit (execAll env acts') k) := by
  rw [execAll_append, unlessExit_orNext]

theorem unlessExit_op (o : Op) (acts : List Act) (k : Loop H (Except ExitReason α)) :
    unlessExit (execAll env (.op o :: acts)) k = (do
      match ← o.exec env with
      | .exit reason => return .error reason
      | .cont => unlessExit (execAll env acts) k) := by
  rw [execAll, Code.firstOf_cons, unlessExit_orNext]
  funext core
  rw [unlessExit, Act.exec, Code.bind_apply, Code.bind_apply]
  cases o.exec env core with
  | mk result core' =>
    cases result with
    | panicked => rfl
    | done outcome =>
      cases outcome with
      | exit reason => rfl
      | cont => rfl

theorem unlessExit_close (k : Loop H (Except ExitReason α)) :
    unlessExit (execAll env [.close]) k = (do
      let reason ← channelClosed env
      return .error reason) := by
  rw [execAll, Code.firstOf_singleton]
  funext core
  rw [unlessExit, Act.exec, Code.bind_apply, Code.bind_apply]
  cases channelClosed env core with
  | mk o core' =>
    cases o with
    | panicked => rfl
    | done reason => rfl

theorem unlessExit_fail (k : Loop H (Except ExitReason α)) :
    unlessExit (execAll env [.fail]) k = (do
      let reason ← infraError env
      return .error reason) := by
  rw [execAll, Code.firstOf_singleton]
  funext core
  rw [unlessExit, Act.exec, Code.bind_apply, Code.bind_apply]
  cases infraError env core with
  | mk o core' =>
    cases o with
    | panicked => rfl
    | done reason => rfl

theorem unlessExit_bind (m : Loop H (Option ExitReason)) (a : α)
    {f : Except ExitReason α → Loop H (Except ExitReason β)}
    (hf : ∀ reason, f (.error reason) = pure (.error reason)) :
    (unlessExit m (pure (.ok a)) >>= f) = unlessExit m (f (.ok a)) := by
  funext core
  rw [Code.bind_apply, unlessExit, unlessExit]
  cases m core with
  | mk o core' =>
    cases o with
    | panicked => rfl
    | done exit =>
      cases exit with
      | some reason => exact congrFun (hf reason) core'
      | none => rfl

theorem untilExit_eq (f : α → Op) (as : List α) :
    untilExit (fun a => (f a).exec env) as = execAll env (as.map fun a => .op (f a)) := by
  rw [execAll, Code.firstOf_map]
  rfl

theorem serve_eq (revoked : HashSet UInt16) (elapsed : Nat → Bool) (session : α → UInt16)
    (f : α → Op) (dispatched : Nat) (as : List α) :
    serve revoked elapsed session (fun a => (f a).exec env) dispatched as =
      unlessExit (execAll env ((portion revoked elapsed session dispatched as).1.map
        fun a => .op (f a))) (pure (.ok (portion revoked elapsed session dispatched as).2)) := by
  induction as generalizing dispatched with
  | nil => rfl
  | cons a as ih =>
    rw [serve, portion]
    by_cases hrevoked : session a ∈ revoked
    · rw [if_pos hrevoked, if_pos hrevoked]
      exact ih dispatched
    · rw [if_neg hrevoked, if_neg hrevoked]
      funext core
      by_cases hlast : defaultBatchMsgLimit ≤ dispatched + 1 ∨ elapsed (dispatched + 1)
      · simp only [if_pos hlast, List.map_cons, List.map_nil, unlessExit_op, Code.bind_apply]
        cases (f a).exec env core with
        | mk o core' =>
          cases o with
          | panicked => rfl
          | done outcome => cases outcome <;> rfl
      · simp only [if_neg hlast, List.map_cons, unlessExit_op, Code.bind_apply]
        cases (f a).exec env core with
        | mk o core' =>
          cases o with
          | panicked => rfl
          | done outcome =>
            cases outcome with
            | exit reason => rfl
            | cont => exact congrFun (ih (dispatched + 1)) core'

theorem forEach_eq (f : α → Loop H Unit) (op : α → Op)
    (hop : ∀ a, (op a).exec env = do f a; return .cont) (as : List α)
    (k : Loop H (Except ExitReason β)) :
    (do Code.forEach f as; k) =
      unlessExit (execAll env (as.map fun a => .op (op a))) k := by
  induction as with
  | nil => rfl
  | cons a as ih =>
    rw [List.map_cons, unlessExit_op, hop, ← ih]
    funext core
    rw [Code.forEach, Code.bind_apply, Code.bind_apply, Code.bind_apply, Code.bind_apply]
    cases f a core with
    | mk result core' =>
      cases result with
      | panicked => rfl
      | done _ => rfl

theorem serve_requests_eq (revoked : HashSet UInt16) (elapsed : Nat → Bool) (shared : Bool)
    (dispatched : Nat) (as : List (UInt16 × Token × Bytes)) :
    serve revoked elapsed (fun r => r.1) (fun (sessionId, token, inner) =>
        dispatchRequestWithContext env shared sessionId token inner) dispatched as =
      unlessExit (execAll env
        ((portion revoked elapsed (fun r => r.1) dispatched as).1.map (requestAct shared)))
        (pure (.ok (portion revoked elapsed (fun r => r.1) dispatched as).2)) :=
  serve_eq env _ elapsed _ (fun r => .service shared r.1 (.request r.2.1 r.2.2)) dispatched as

theorem serve_notifications_eq (revoked : HashSet UInt16) (elapsed : Nat → Bool)
    (dispatched : Nat) (as : List (UInt16 × Bytes)) :
    serve revoked elapsed (fun n => n.1) (fun (sessionId, inner) =>
        dispatchNotification env sessionId inner) dispatched as =
      unlessExit (execAll env
        ((portion revoked elapsed (fun n => n.1) dispatched as).1.map notificationAct))
        (pure (.ok (portion revoked elapsed (fun n => n.1) dispatched as).2)) :=
  serve_eq env _ elapsed _ (fun n => .service false n.1 (.notification n.2)) dispatched as

theorem inboundPhase_eq (elapsed : Nat → Bool) (state : LoopState) :
    inboundPhase env elapsed state =
      unlessExit (execAll env (inboundPlan elapsed state).1)
        (pure (.ok (inboundPlan elapsed state).2)) := by
  rw [inboundPhase, inboundPlan]
  simp only [serve_requests_eq, serve_notifications_eq]
  generalize portion state.batch.revokedSessions elapsed (fun r => r.1) 0 state.batch.requests = p
  obtain ⟨served, dispatched, requests⟩ := p
  rw [unlessExit_bind _ _ (by exact fun _ => rfl)]
  dsimp only
  generalize portion state.batch.revokedSessions elapsed (fun n => n.1) dispatched
    state.batch.notifications = p
  obtain ⟨notified, -, notifications⟩ := p
  split
  · rfl
  · rw [unlessExit_bind _ _ (by exact fun _ => rfl)]
    dsimp only
    split
    · rw [unlessExit_append]
    · rw [unlessExit_append, unlessExit_append]
      split
      · rw [unlessExit_close]
      · rfl

theorem frameworkPhases_eq (b : Batch) :
    frameworkPhases env b = execAll env (frameworkPlan b) := by
  show Code.firstOf id
    [untilExit (fun r => (Op.service false r.1 (.reply r.2.1 r.2.2)).exec env) b.replies,
      untilExit (fun r => (Op.service false r.1 (.failed r.2)).exec env) b.failed,
      untilExit (fun t => (Op.tearDown t.1 t.2).exec env) b.teardowns,
      untilExit (fun p => (Op.handle (.control (.paneExited p.1 p.2))).exec env) b.paneExited,
      untilExit (fun s => (Op.connectSubscriber s).exec env) b.subscriberConnected,
      untilExit (fun m => (Op.handle (.control (.lifecycle m))).exec env) b.lifecycle] = _
  simp only [untilExit_eq, frameworkPlan, execAll_append, Code.firstOf_cons, id_eq]
  rw [Code.firstOf, Code.orNext_none]

theorem dispatchBatch_eq (elapsed : Nat → Bool) (state : LoopState) :
    dispatchBatch env elapsed state =
      unlessExit (execAll env (batchPlan elapsed state).1)
        (pure (.ok (batchPlan elapsed state).2)) := by
  rw [batchPlan, unlessExit_append, unlessExit_append, unlessExit_append, ← inboundPhase_eq,
    ← forEach_eq env (fun payload => Functor.discard (trySend env 0 payload)) _ fun _ => rfl,
    ← forEach_eq env (processSyncRequest env) _ fun _ => rfl, ← frameworkPhases_eq, dispatchBatch]
  funext core
  rw [Code.bind_apply, Code.bind_apply]
  cases Code.forEach (processSyncRequest env) state.batch.syncRequests core with
  | mk o core₁ =>
    cases o with
    | panicked => rfl
    | done _ =>
      dsimp only
      rw [Code.bind_apply, unlessExit]
      cases frameworkPhases env state.batch core₁ with
      | mk o core₂ =>
        cases o with
        | panicked => rfl
        | done exit =>
          cases exit with
          | some reason => rfl
          | none => rfl

theorem dispatchBatch_snd (elapsed : Nat → Bool) (state : LoopState) (core : LooperCore H) :
    (dispatchBatch env elapsed state core).2 =
      (execAll env (batchPlan elapsed state).1 core).2 := by
  rw [dispatchBatch_eq, unlessExit]
  cases execAll env (batchPlan elapsed state).1 core with
  | mk o core' =>
    cases o with
    | panicked => rfl
    | done exit =>
      cases exit with
      | none => rfl
      | some reason => rfl

theorem tickStep_eq (state : LoopState) (tick : Tick) :
    tickStep env state tick =
      unlessExit (execAll env (tickPlan env.pc state tick).1)
        (pure (.ok (tickPlan env.pc state tick).2)) := by
  rw [tickStep, tickPlan]
  split
  · rw [unlessExit_fail]
  · dsimp only
    split
    · rfl
    · exact dispatchBatch_eq env tick.elapsed _

theorem mainLoop_plan (state : LoopState) (ticks : List Tick) :
    mainLoop env state ticks = execAll env (runPlan env.pc state ticks) := by
  induction ticks generalizing state with
  | nil => rfl
  | cons tick ticks ih =>
    rw [mainLoop, runPlan, execAll_append, tickStep_eq, ← ih]
    funext core
    rw [Code.bind_apply, unlessExit, Code.orNext]
    cases execAll env (tickPlan env.pc state tick).1 core with
    | mk o core' =>
      cases o with
      | panicked => rfl
      | done exit =>
        cases exit with
        | some reason => rfl
        | none => rfl

theorem run_plan (setupFails : Bool) (ticks : List Tick) :
    Looper.run env setupFails ticks =
      execAll env (if setupFails then [.fail] else runPlan env.pc ⟨Batch.new, false⟩ ticks) := by
  rw [Looper.run]
  split
  · rw [execAll, Code.firstOf_singleton]
    rfl
  · exact mainLoop_plan env _ ticks

theorem coreRun_plan (msgs : List LooperMessage) :
    (do let reason ← CoreRequest.run env msgs; return some reason) =
      execAll env (msgs.map (fun msg => .op (.handle msg)) ++ [.close]) := by
  induction msgs with
  | nil =>
    rw [List.map_nil, List.nil_append, execAll, Code.firstOf_singleton]
    rfl
  | cons msg msgs ih =>
    rw [List.map_cons, List.cons_append, execAll, Code.firstOf_cons, ← execAll, ← ih]
    have hexec : Op.exec env (.handle msg) = CoreRequest.handle env msg := rfl
    funext core
    rw [CoreRequest.run, Code.bind_apply, Code.bind_apply, Code.orNext, Act.exec, Code.bind_apply,
      hexec]
    cases CoreRequest.handle env msg core with
    | mk o core' =>
      cases o with
      | panicked => rfl
      | done outcome =>
        cases outcome with
        | cont => rfl
        | exit reason => rfl

section Connections

theorem inboundPlan_loop (elapsed : Nat → Bool) (state : LoopState) :
    (inboundPlan elapsed state).2.sharedWriter = state.sharedWriter ∧
      (inboundPlan elapsed state).2.batch.newConnection = none := by
  rw [inboundPlan]
  dsimp only
  split
  · exact ⟨rfl, rfl⟩
  · split
    · exact ⟨rfl, rfl⟩
    · exact ⟨rfl, rfl⟩

theorem tickPlan_loop (pc : Postcard) (state : LoopState) {t : Tick} (ht : t.pollFails = false) :
    (tickPlan pc state t).2.sharedWriter = (state.sharedWriter ||
        (t.inputs.foldl (collectInput pc) state.batch).newConnection = some true) ∧
      (tickPlan pc state t).2.batch.newConnection = none := by
  rw [tickPlan, if_neg (by simp [ht])]
  dsimp only
  split
  · rename_i hempty
    have hnone : (t.inputs.foldl (collectInput pc) state.batch).newConnection = none := by
      rw [Batch.isEmpty] at hempty
      simp only [Bool.and_eq_true, Option.isNone_iff_eq_none] at hempty
      exact hempty.1.2
    rw [hnone]
    simp
  · exact inboundPlan_loop t.elapsed _

theorem newConnection_collectInput (pc : Postcard) {input : Input} {b : Batch}
    (hb : b.newConnection ≠ some true) (h : input ≠ .message (.newConnection true)) :
    (collectInput pc b input).newConnection ≠ some true := by
  cases input with
  | message msg =>
    cases msg with
    | newConnection registers =>
      cases registers with
      | true => exact absurd rfl h
      | false => simp [collectInput, Batch.collect]
    | control msg => cases msg <;> exact hb
    | localRevoke sessionId =>
      rw [collectInput, Batch.collect, Batch.collectRevoke]
      split <;> exact hb
    | service sessionId payload =>
      rw [collectInput, Batch.collect]
      split
      · exact hb
      · rename_i frame _
        cases frame <;> exact hb
  | _ => exact hb

theorem newConnection_foldl (pc : Postcard) (inputs : List Input) {b : Batch}
    (hb : b.newConnection ≠ some true) (h : .message (.newConnection true) ∉ inputs) :
    (inputs.foldl (collectInput pc) b).newConnection ≠ some true := by
  induction inputs generalizing b with
  | nil => exact hb
  | cons input inputs ih =>
    rw [List.mem_cons, not_or] at h
    exact ih (newConnection_collectInput pc hb (Ne.symm h.1)) h.2

end Connections

section Visited

variable {I : LooperCore H → Prop} {O : ExitReason → LooperCore H → Prop}
  {X : LooperCore H → Prop} {ok : Act → LooperCore H → Prop}

def visited : List Act → LooperCore H → List (Act × LooperCore H)
  | [], _ => []
  | act :: acts, core =>
    (act, core) ::
      match act.exec env core with
      | (.done none, core') => visited acts core'
      | _ => []

theorem execAll_cons (act : Act) (acts : List Act) (core : LooperCore H) :
    (∃ core', act.exec env core = (.done none, core') ∧
      execAll env (act :: acts) core = execAll env acts core' ∧
      visited env (act :: acts) core = (act, core) :: visited env acts core') ∨
    (act.exec env core).1 ≠ .done none ∧ execAll env (act :: acts) core = act.exec env core ∧
      visited env (act :: acts) core = [(act, core)] := by
  rw [execAll, Code.firstOf_cons, Code.orNext, visited]
  cases hexec : act.exec env core with
  | mk o core' =>
    cases o with
    | panicked => exact .inr ⟨by simp, rfl, rfl⟩
    | done exit =>
      cases exit with
      | some reason => exact .inr ⟨by simp, rfl, rfl⟩
      | none => exact .inl ⟨core', rfl, rfl, rfl⟩

theorem mem_of_visited {acts : List Act} {core : LooperCore H} {v : Act × LooperCore H}
    (h : v ∈ visited env acts core) : v.1 ∈ acts := by
  induction acts generalizing core with
  | nil => exact (List.not_mem_nil h).elim
  | cons act acts ih =>
    obtain rfl | h := List.mem_cons.mp h
    · exact List.mem_cons_self
    · split at h
      · exact List.mem_cons_of_mem _ (ih h)
      · exact (List.not_mem_nil h).elim

theorem leaves_execAll
    (h : ∀ act core, I core → ok act core → Ends (act.exec env) core (Leaves id I O X))
    (acts : List Act) {core : LooperCore H} (hcore : I core)
    (hok : ∀ v ∈ visited env acts core, ok v.1 v.2) :
    Ends (execAll env acts) core (Leaves id I O X) := by
  induction acts generalizing core with
  | nil => exact hcore
  | cons act acts ih =>
    have hact := h act core hcore (hok (act, core) List.mem_cons_self)
    obtain ⟨core', hexec, hall, hvisited⟩ | ⟨-, hall, -⟩ := execAll_cons env act acts core
    · unfold Ends at hact
      rw [hexec] at hact
      rw [hvisited] at hok
      exact Ends.congr (ih hact fun v hv => hok v (List.mem_cons_of_mem _ hv)) hall
    · exact Ends.congr hact hall

theorem visited_or
    (h : ∀ act core, I core → ok act core → Ends (act.exec env) core (Leaves id I O X))
    (acts : List Act) {core : LooperCore H} (hcore : I core) :
    (∀ v ∈ visited env acts core, I v.2 ∧ ok v.1 v.2) ∨
      ∃ v ∈ visited env acts core, I v.2 ∧ ¬ ok v.1 v.2 := by
  induction acts generalizing core with
  | nil => exact .inl fun v hv => absurd hv List.not_mem_nil
  | cons act acts ih =>
    by_cases hok : ok act core
    · have hact := h act core hcore hok
      obtain ⟨core', hexec, -, hvisited⟩ | ⟨-, -, hvisited⟩ := execAll_cons env act acts core
      · unfold Ends at hact
        rw [hexec] at hact
        rw [hvisited]
        obtain hall | ⟨v, hv, hbad⟩ := ih hact
        · exact .inl (List.forall_mem_cons.mpr ⟨⟨hcore, hok⟩, hall⟩)
        · exact .inr ⟨v, List.mem_cons_of_mem _ hv, hbad⟩
      · rw [hvisited]
        exact .inl (List.forall_mem_singleton.mpr ⟨hcore, hok⟩)
    · exact .inr ⟨(act, core), List.mem_cons_self, hcore, hok⟩

theorem moves_execAll {D : LooperCore H → LooperCore H → Prop} [Std.Refl D] [Trans D D D]
    {acts : List Act} (h : ∀ act ∈ acts, Moves D D (act.exec env)) : Moves D D (execAll env acts) := by
  induction acts with
  | nil => exact Moves.pure none
  | cons act acts ih =>
    refine Moves.bind (h act List.mem_cons_self) fun exit => ?_
    cases exit with
    | none => exact ih fun a ha => h a (List.mem_cons_of_mem _ ha)
    | some reason => exact Moves.pure _

theorem related_of_visited {R : LooperCore H → LooperCore H → Prop} [Std.Refl R]
    [IsTrans (LooperCore H) R] (h : ∀ (act : Act) core, R core (act.exec env core).2)
    (acts : List Act) (core : LooperCore H) : R core (execAll env acts core).2 ∧
      ∀ v ∈ visited env acts core,
        R core v.2 ∧ R (v.1.exec env v.2).2 (execAll env acts core).2 := by
  induction acts generalizing core with
  | nil => exact ⟨Std.Refl.refl core, fun v hv => absurd hv List.not_mem_nil⟩
  | cons act acts ih =>
    have hact := h act core
    obtain ⟨core', hexec, hall, hvisited⟩ | ⟨-, hall, hvisited⟩ := execAll_cons env act acts core
    · obtain ⟨hrest, hlater⟩ := ih core'
      rw [hall, hvisited]
      rw [hexec] at hact
      refine ⟨IsTrans.trans _ _ _ hact hrest, List.forall_mem_cons.mpr ⟨⟨Std.Refl.refl core, ?_⟩, ?_⟩⟩
      · rw [hexec]
        exact hrest
      · intro v hv
        exact ⟨IsTrans.trans _ _ _ hact (hlater v hv).1, (hlater v hv).2⟩
    · rw [hall, hvisited]
      exact ⟨hact, List.forall_mem_singleton.mpr ⟨Std.Refl.refl core, Std.Refl.refl _⟩⟩

theorem leaves_act (h : Rules env I O X) (act : Act) {core : LooperCore H} (hcore : I core) :
    Ends (act.exec env) core (Leaves id I O X) := by
  cases act with
  | op o =>
    refine Ends.seq (h.exec o core hcore) ?_ fun _ hx => hx
    intro outcome core' ho
    cases outcome with
    | cont => exact ho
    | exit reason => exact ho
  | close => exact Ends.seq (h.channelClosed core hcore) (fun _ _ ho => ho) fun _ hx => hx
  | fail => exact Ends.seq (h.infraError core hcore) (fun _ _ ho => ho) fun _ hx => hx

end Visited

end Pane.LooperPlan
