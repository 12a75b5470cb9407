import Pane.LooperHistory
import Pane.PanicContainment

namespace Pane.ExitReasons

open Pane.HashTable Pane.Messages Pane.Correlator Pane.Callbacks Pane.Unwinding Pane.LooperState
open Pane.CoreDispatch Pane.CoreRequest Pane.Looper Pane.CoreRuns Pane.LooperSafety
open Pane.PanicContainment Pane.PostcardFormat Pane.LooperHistory

variable {H : Type} (env : Env H) {core : LooperCore H} {call : Call} {reason : ExitReason}
  {notes : List (Nat × Note)}

def isDestroying : Note → Bool
  | .destroying _ => true
  | _ => false

def destructions (core : LooperCore H) : Nat := core.notes.countP (isDestroying ·.2)

/-- `disconnected` was called for a closed channel and has asked to stop. -/
def stopsWhenLost (core : LooperCore H) : Bool :=
  core.notes.any (·.2 = .returned .disconnected .stop)

theorem countP_standing (h : Standing notes) : notes.countP (isDestroying ·.2) = 0 := by
  rw [List.countP_eq_zero]
  rintro ⟨n, note⟩ hmem hnote
  cases note with
  | destroying reason => exact h n reason hmem
  | _ => exact Bool.noConfusion hnote

theorem notMem_of_heeded (h : Heeded notes) (n : Nat) :
    (n, Note.returned .disconnected .stop) ∉ notes := by
  intro hmem
  obtain ⟨before, after, rfl⟩ := List.append_of_mem hmem
  obtain ⟨-, -, -, t, -, hcall⟩ := h before n .disconnected after rfl
  exact Call.noConfusion hcall

theorem destructions_destroyed {stopped : Option Call} (h : Destroyed reason stopped core) :
    destructions core = 1 := by
  obtain ⟨before, n, after, hnotes, hbefore, -, hafter, -⟩ := h
  have hasking : (asking n stopped).countP (isDestroying ·.2) = 0 := by
    cases stopped with
    | none => rfl
    | some call => rfl
  rw [destructions, hnotes, List.countP_append, List.countP_append, List.countP_cons,
    countP_standing hbefore, countP_standing hafter.standing, hasking]
  rfl

theorem stopsWhenLost_destroyed {stopped : Option Call} (h : Destroyed reason stopped core) :
    stopsWhenLost core = decide (stopped = some .disconnected) := by
  obtain ⟨before, n, after, hnotes, -, hheeded, hafter, -⟩ := h
  have hbefore : before.any (·.2 = .returned .disconnected .stop) = false := by
    rw [List.any_eq_false]
    rintro ⟨m, note⟩ hmem hnote
    rw [decide_eq_true_eq] at hnote
    exact notMem_of_heeded hheeded m (hnote ▸ hmem)
  have hclosing : after.any (·.2 = .returned .disconnected .stop) = false := by
    rw [List.any_eq_false]
    intro m hmem hnote
    rw [decide_eq_true_eq] at hnote
    obtain ⟨t, hcall⟩ := (hafter m hmem).2 .disconnected .stop hnote
    exact Call.noConfusion hcall
  rw [stopsWhenLost, hnotes, List.any_append, List.any_append, List.any_cons, hbefore,
    hclosing]
  cases stopped with
  | none => rfl
  | some call => simp [asking]

theorem sent_of_ended (h : Ended reason core) : destructions core = 1 ∧
    core.exitTx.getLast? = some reason ∧
    core.exitTx = if stopsWhenLost core then [.graceful, .disconnected] else [reason] := by
  cases h with
  | unasked hexitTx h =>
    rw [hexitTx, stopsWhenLost_destroyed h]
    exact ⟨destructions_destroyed h, rfl, rfl⟩
  | corrected hexitTx h =>
    rw [hexitTx, stopsWhenLost_destroyed h]
    exact ⟨destructions_destroyed h, rfl, rfl⟩
  | asked call hcall hexitTx h =>
    rw [hexitTx, stopsWhenLost_destroyed h, if_neg (by simpa using hcall)]
    exact ⟨destructions_destroyed h, rfl, rfl⟩

/-- The destruction sequence is run once, and the reason that `run` returns is
sent last. It is the only one, but for a connection loss that `disconnected`
answers by a stop: the reason is then sent twice, first as a graceful exit. -/
theorem one_destruction (handler : H) (primaryConnection : PeerScope) :
    (∀ msgs reason core,
      CoreRequest.run env msgs (LooperCore.new handler primaryConnection) = (.done reason, core) →
        destructions core = 1 ∧ core.exitTx.getLast? = some reason ∧
        core.exitTx = if stopsWhenLost core then [.graceful, .disconnected] else [reason]) ∧
    (∀ setupFails ticks reason core,
      Looper.run env setupFails ticks (LooperCore.new handler primaryConnection) =
          (.done (some reason), core) →
        destructions core = 1 ∧ core.exitTx.getLast? = some reason ∧
        core.exitTx = if stopsWhenLost core then [.graceful, .disconnected] else [reason]) := by
  have hstart := running_new handler primaryConnection
  refine ⟨?_, ?_⟩
  · intro msgs reason core hrun
    have hend := (rules_running env).coreRun msgs hstart
    unfold Ends at hend
    rw [hrun] at hend
    exact sent_of_ended hend
  · intro setupFails ticks reason core hrun
    have hend := (rules_running env).looperRun setupFails ticks hstart
    unfold Ends at hend
    rw [hrun] at hend
    exact sent_of_ended hend

section Lost

theorem one_destruction_of_panic :
    let run := CoreRequest.run panicking requestThenClose (LooperCore.new () ⟨1⟩)
    run.1 = .done .failed ∧ destructions run.2 = 1 ∧ run.2.exitTx = [.failed] := by
  intro run
  have hrun : CoreRequest.run panicking requestThenClose (LooperCore.new () ⟨1⟩) =
      (.done .failed, run.2) := rfl
  obtain ⟨honce, -, hsent⟩ := (one_destruction panicking () ⟨1⟩).1 requestThenClose .failed run.2 hrun
  have hlost : stopsWhenLost run.2 = false := by decide +kernel
  rw [hlost] at hsent
  exact ⟨rfl, honce, hsent⟩

/-- A handler that does not override `disconnected`, whose channel is closed. -/
theorem two_reasons_when_lost :
    let env := { Env.idle postcard with handler.disconnected := fun h => .ret h .stop }
    let run := CoreRequest.run env [] (LooperCore.new () ⟨1⟩)
    run.1 = .done .disconnected ∧ run.2.exitTx = [.graceful, .disconnected] := ⟨rfl, rfl⟩

end Lost

def stopReason : Call → ExitReason
  | .disconnected => .disconnected
  | .lifecycle .disconnected => .disconnected
  | _ => .graceful

/-- A stop is answered by the destruction, and no callback but failure closures
is run after it. -/
structure Honoured (call : Call) (n : Nat) (after : List (Nat × Note)) (exit : Option ExitReason)
    (core : LooperCore H) : Prop where
  destroying : after.head? = some (n, .destroying .graceful)
  called : ∀ call, Event.called call ∈ core.trace.drop n → ∃ t, call = .onFailed t
  exit : exit = some (stopReason call)

variable {before after : List (Nat × Note)} {n : Nat}

theorem asked_of_destroyed {stopped : Option Call} (h : Destroyed reason stopped core)
    (hnotes : core.notes = before ++ (n, .returned call .stop) :: after) (hstanding : Standing before)
    (hnot : ¬ Cascaded before call) :
    stopped = some call ∧ after.head? = some (n, .destroying reason) ∧
      ∀ call, Event.called call ∈ core.trace.drop n → ∃ t, call = .onFailed t := by
  obtain ⟨before', n', after', hnotes', -, hheeded, -, hcalled⟩ := h
  obtain ⟨rest, hrest⟩ | ⟨mid, rfl, hrest⟩ := split_append (hnotes'.symm.trans hnotes)
  · exact absurd (hheeded before n call rest hrest) hnot
  · have hmid : (n', Note.destroying reason) ∉ mid := fun hmem =>
      hstanding n' reason (List.mem_append_right _ hmem)
    cases stopped with
    | none =>
      cases mid with
      | nil => exact Note.noConfusion (Prod.mk.inj (List.cons.inj hrest).1).2
      | cons m mid => exact absurd ((List.cons.inj hrest).1 ▸ List.mem_cons_self) hmid
    | some call' =>
      cases mid with
      | nil =>
        obtain ⟨hhead, rfl⟩ := List.cons.inj hrest
        obtain ⟨rfl, hcall⟩ := Prod.mk.inj hhead
        exact ⟨congrArg some (Note.returned.inj hcall).1, rfl, hcalled⟩
      | cons m mid =>
        cases mid with
        | nil => exact Note.noConfusion (Prod.mk.inj (List.cons.inj (List.cons.inj hrest).2).1).2
        | cons m' mid =>
          have hm' := (List.cons.inj (List.cons.inj hrest).2).1
          exact absurd (hm' ▸ List.mem_cons_of_mem _ List.mem_cons_self) hmid

/-- Whoever asks to stop before the destruction is heeded, unless it is a failure
closure that a cascade of the session layer runs, or `disconnected` is called for
a message and not for the end of the channel. -/
theorem stop_honoured (hframes : env.pc.FrameRoundTrip) (handler : H)
    (primaryConnection : PeerScope) (setupFails : Bool) (ticks : List Tick)
    (o : Outcome (Option ExitReason)) (core : LooperCore H)
    (hrun : Looper.run env setupFails ticks (LooperCore.new handler primaryConnection) = (o, core))
    (hcalm : CalmCascades env core) (hsenders : SendersClaimable core)
    (before : List (Nat × Note)) (n : Nat) (call : Call) (after : List (Nat × Note))
    (hnotes : core.notes = before ++ (n, .returned call .stop) :: after)
    (hstanding : Standing before) (hcascaded : ¬ Cascaded before call)
    (hlifecycle : call ≠ .lifecycle .disconnected) :
    ∃ exit, o = .done exit ∧ Honoured call n after exit core := by
  have hlive := (rules_live env hframes).looperRun setupFails ticks
    (live_new handler primaryConnection)
  have hend := (rules_running env).looperRun setupFails ticks
    (running_new handler primaryConnection)
  unfold Ends at hlive hend
  rw [hrun] at hlive hend
  cases o with
  | panicked => exact absurd hlive (not_escaped env hcalm hsenders)
  | done exit =>
    cases exit with
    | none => exact absurd (Running.heeded hend before n call after hnotes) hcascaded
    | some reason =>
      refine ⟨_, rfl, ?_⟩
      cases hend with
      | unasked hexitTx h =>
        exact absurd (asked_of_destroyed h hnotes hstanding hcascaded).1 (by simp)
      | asked call' hcall hexitTx h =>
        obtain ⟨hcall', hhead, hcalled⟩ := asked_of_destroyed h hnotes hstanding hcascaded
        obtain rfl := Option.some.inj hcall'
        refine ⟨hhead, hcalled, ?_⟩
        unfold stopReason
        split
        · exact absurd rfl hcall
        · exact absurd rfl hlifecycle
        · rfl
      | corrected hexitTx h =>
        obtain ⟨hcall', hhead, hcalled⟩ := asked_of_destroyed h hnotes hstanding hcascaded
        obtain rfl := Option.some.inj hcall'
        exact ⟨hhead, hcalled, rfl⟩

section Stops

def obliging : Env Unit :=
  { forwarding SyncRequest.entry with handler.closeRequested := fun h => .ret h .stop }

def closing : Outcome (Option ExitReason) × LooperCore Unit :=
  Looper.run obliging false
    [Tick.of [.message requestToForward], Tick.of [.message (.control (.lifecycle .closeRequested))]]
    (LooperCore.new () ⟨1⟩)

theorem stop_honoured_of_close :
    closing.1 = .done (some .graceful) ∧
      closing.2.notes[1]? = some (9, .returned (.lifecycle .closeRequested) .stop) ∧
      ∀ call, .called call ∈ closing.2.trace.drop 9 → ∃ t, call = .onFailed t := by
  have hcalm : CalmCascades obliging closing.2 := by
    intro x hx
    have hcascaded : closing.2.cascaded = [.inl SyncRequest.entry] := rfl
    rw [hcascaded, List.mem_singleton] at hx
    subst hx
    exact fun t core h => by cases h
  have hsenders : SendersClaimable closing.2 := by
    intro s s' hmem
    have hnone : closing.2.trace.all (fun e => !(e matches .unclaimable ..)) = true := rfl
    simpa using List.all_eq_true.mp hnone _ hmem
  have hnotes : closing.2.notes = [(8, .returned (.receiveRequest 5 0 [7]) .cont)] ++
      (9, .returned (.lifecycle .closeRequested) .stop) :: closing.2.notes.drop 2 := rfl
  have hstanding : Standing [(8, .returned (.receiveRequest 5 0 [7]) .cont)] :=
    fun n reason hmem => by simp at hmem
  have hcascaded : ¬ Cascaded [(8, .returned (.receiveRequest 5 0 [7]) .cont)]
      (.lifecycle .closeRequested) := fun ⟨_, _, hmem, _⟩ => by simp at hmem
  obtain ⟨exit, hexit, h⟩ := stop_honoured obliging postcard_frame () ⟨1⟩ false _ closing.1 closing.2
    rfl hcalm hsenders _ 9 _ _ hnotes hstanding hcascaded (by decide)
  exact ⟨hexit.trans (congrArg _ h.exit), rfl, h.called⟩

/-- A teardown discards that a failure closure asks to stop: the handler is
called next, and the looper goes on. -/
theorem stop_lost_in_teardown :
    let env := forwarding ⟨fun _ h => .ret h .cont, fun h => .ret h .stop⟩
    let run := Looper.run env false
      [Tick.of [.message requestToForward],
        Tick.of [.message (.control (.serviceTeardown 1 .connectionLost))]]
      (LooperCore.new () ⟨1⟩)
    run.1 = .done none ∧ (9, .returned (.onFailed 0) .stop) ∈ run.2.notes ∧
      .called (.subscriberDisconnected 1 .connectionLost) ∈ run.2.trace.drop 9 :=
  ⟨by decide +kernel, by decide +kernel, by decide +kernel⟩

-- `disconnected` can also be called for a message. The reason is then not corrected.
example :
    let env := { Env.idle postcard with handler.disconnected := fun h => .ret h .stop }
    let run := Looper.run env false [Tick.of [.message (.control (.lifecycle .disconnected))]]
      (LooperCore.new () ⟨1⟩)
    run.1 = .done (some .graceful) := rfl

end Stops

end Pane.ExitReasons
