import Pane.BatchScheduling
import Pane.ConnectionSource
import Pane.DecoderAgreement
import Pane.EntrySteps
import Pane.EventFilters
import Pane.ExactlyOnce

namespace Pane.ConnectionLoss

open Pane.HashTable Pane.Messages Pane.Framing Pane.NonBlockingFraming Pane.DecoderAgreement
open Pane.Unwinding Pane.LooperState Pane.CoreDispatch Pane.CoreRequest Pane.Looper Pane.CoreRuns
open Pane.LooperPlan Pane.RequestLedger Pane.LiveCore Pane.LooperSafety Pane.ExactlyOnce
open Pane.BatchPhases Pane.BatchScheduling Pane.ConnectionSource Pane.PostcardFormat
open Pane.EventFilters (Grown grown_act)
open Pane.EntrySteps (Tidy spends makes owed paces_execAll tidy_course tidy_capped)

section Reading

variable {r r' : FrameReader} {ds ds' : List Delivery} {frame : Option Frame}

def Open (r : FrameReader) : Prop := r.filled < r.buf.length

theorem open_reset (r : FrameReader) : Open r.reset := by
  show 0 < (resize 4 r.buf).length
  rw [length_resize]
  exact Nat.zero_lt_succ 3

theorem open_of_fills {buf : Bytes} {filled : Nat} {source : List Delivery}
    (h : Fills r.buf r.filled ds ⟨.wouldBlock, buf, filled, source⟩) :
    Open { r with buf, filled } := by
  have hlength : buf.length = r.buf.length := h.length
  have hfilled : filled < r.buf.length := h.wouldBlock rfl
  show filled < buf.length
  omega

theorem takeBody_progress {n : UInt32} (hr : Open r) (h : r.takeBody n ds = (.ok frame, r', ds')) :
    Open r' ∧ size ds' < size ds := by
  have hf : Fills r.buf r.filled ds (readInto r.buf r.filled ds) :=
    fills_readInto (Nat.le_of_lt hr)
  unfold FrameReader.takeBody at h
  generalize readInto r.buf r.filled ds = got at hf h
  obtain ⟨progress, buf, filled, source⟩ := got
  cases progress with
  | wouldBlock =>
    cases h
    exact ⟨open_of_fills hf, hf.less hr (by simp)⟩
  | eof => cases h
  | error e => cases h
  | complete =>
    simp only at h
    split at h
    · cases h
      exact ⟨open_reset _, hf.less hr (by simp)⟩
    · split at h
      · cases h
      · cases h
        exact ⟨open_reset _, hf.less hr (by simp)⟩

theorem takeLength_progress (hr : Open r) (h : r.takeLength ds = (.ok frame, r', ds')) :
    Open r' ∧ size ds' < size ds := by
  have hf : Fills r.buf r.filled ds (readInto r.buf r.filled ds) :=
    fills_readInto (Nat.le_of_lt hr)
  unfold FrameReader.takeLength at h
  generalize readInto r.buf r.filled ds = got at hf h
  obtain ⟨progress, buf, filled, source⟩ := got
  cases progress with
  | wouldBlock =>
    cases h
    exact ⟨open_of_fills hf, hf.less hr (by simp)⟩
  | eof =>
    simp only at h
    split at h <;> cases h
  | error e => cases h
  | complete =>
    simp only at h
    split at h
    · cases h
    · next hlong =>
      split at h
      · cases h
      · have hopen : Open
            { r with
              buf := resize (UInt32.ofNat (Serialization.fromLeBytes (buf.take 4))).toNat buf
              filled := 0
              state := .body (UInt32.ofNat (Serialization.fromLeBytes (buf.take 4))) } := by
          show 0 < (resize _ buf).length
          rw [length_resize]
          rw [UInt32.lt_iff_toNat_lt] at hlong
          have htwo : (2 : UInt32).toNat = 2 := rfl
          omega
        obtain ⟨hr', hsize⟩ := takeBody_progress hopen h
        have hless : size source < size ds := hf.less hr (by simp)
        exact ⟨hr', by omega⟩

theorem tryReadFrame_progress (hr : Open r) (h : r.tryReadFrame ds = (.ok frame, r', ds')) :
    Open r' ∧ size ds' < size ds := by
  unfold FrameReader.tryReadFrame at h
  cases hstate : r.state with
  | body n =>
    rw [hstate] at h
    exact takeBody_progress hr h
  | length =>
    rw [hstate] at h
    exact takeLength_progress hr h

theorem readFrames_enough (pc : Postcard) {calls calls' : Nat} (hr : Open r)
    (h : size ds < calls) (h' : size ds < calls') :
    readFrames pc calls r ds = readFrames pc calls' r ds := by
  induction calls generalizing calls' r ds with
  | zero => omega
  | succ calls ih =>
    cases calls' with
    | zero => omega
    | succ calls' =>
      unfold readFrames
      split
      · rfl
      · rfl
      · next frame r' ds' hread =>
        obtain ⟨hr', hsize⟩ := tryReadFrame_progress hr hread
        split
        · have hrest : readFrames pc calls r' ds' = readFrames pc calls' r' ds' :=
            ih hr' (by omega) (by omega)
          rw [hrest]
        · rfl
        · rfl

end Reading

/-- A looper with the connections that it was handed. -/
structure Machine (H : Type) where
  loop : LoopState
  sources : List Source
  core : LooperCore H

/-- What the event loop finds in a poll, and what others do to the write buffers
and write channels of the connections. -/
inductive Wake
  | input (input : Input)
  | ready (index : Nat) (ready : Readiness)
  | posted (index : Nat) (msg : WriteMessage)
  | enqueued (index : Nat) (msg : WriteMessage)

variable {H : Type}

namespace Machine

def collected (pc : Postcard) (machine : Machine H) (msgs : List LooperMessage) : Machine H :=
  { machine with loop.batch := msgs.foldl (Batch.collect pc) machine.loop.batch }

/-- The callback that `register_connection_source` installs collects messages, and
that is all it does; a source that asks for it is removed. -/
def processed (pc : Postcard) (machine : Machine H) (index : Nat) (source : Source)
    (ready : Readiness) : Machine H :=
  let processed := source.processEvents pc ready
  { machine.collected pc processed.delivered with
    sources := if processed.action = .remove then machine.sources.eraseIdx index
      else machine.sources.set index processed.source }

def wake (pc : Postcard) (machine : Machine H) : Wake → Machine H
  | .input input => { machine with loop.batch := collectInput pc machine.loop.batch input }
  | .ready index ready => match machine.sources[index]? with
    | some source => machine.processed pc index source ready
    | none => machine
  | .posted index msg => match machine.sources[index]? with
    | some source => { machine with
        sources := machine.sources.set index { source with writeRx := source.writeRx ++ [msg] } }
    | none => machine
  | .enqueued index msg => match machine.sources[index]? with
    | some source => { machine with
        sources := machine.sources.set index
          { source with writer := source.writer.enqueue msg.1 msg.2 } }
    | none => machine

end Machine

/-- The states of a looper between its polls and its batches. Phase 3.5 registers
the connection that a batch hands over. -/
inductive Reached (env : Env H) (limit : UInt32) : Machine H → Prop
  | start (handler : H) (primaryConnection : PeerScope) :
    Reached env limit ⟨⟨Batch.new, false⟩, [], LooperCore.new handler primaryConnection⟩
  | wake {machine : Machine H} (wake : Wake) (hmachine : Reached env limit machine) :
    Reached env limit (machine.wake env.pc wake)
  | dispatch {machine : Machine H} {loop : LoopState} {core : LooperCore H} (elapsed : Nat → Bool)
    (hmachine : Reached env limit machine) (hbatch : machine.loop.batch.isEmpty = false)
    (hdispatch : dispatchBatch env elapsed machine.loop machine.core = (.done (.ok loop), core)) :
    Reached env limit ⟨loop, machine.sources ++
      if machine.loop.batch.newConnection = some true then [Source.new limit] else [], core⟩

/-- The handler was told that its connection is gone, or it will be when the batch
is dispatched. -/
def Told (machine : Machine H) : Prop :=
  .called .disconnected ∈ machine.core.trace ∨
    .called (.lifecycle .disconnected) ∈ machine.core.trace ∨
    machine.loop.batch.channelClosed = true ∨ .disconnected ∈ machine.loop.batch.lifecycle

theorem channelClosed_collect (pc : Postcard) (b : Batch) (msg : LooperMessage) :
    (b.collect pc msg).channelClosed = b.channelClosed := by
  cases msg with
  | control msg => cases msg <;> rfl
  | localRevoke sessionId =>
    show (b.collectRevoke pc sessionId).channelClosed = _
    unfold Batch.collectRevoke
    split <;> rfl
  | newConnection registers => rfl
  | service sessionId payload =>
    simp only [Batch.collect]
    split
    · rfl
    · next frame _ => cases frame <;> rfl

theorem channelClosed_collected (pc : Postcard) (machine : Machine H) (msgs : List LooperMessage) :
    (machine.collected pc msgs).loop.batch.channelClosed = machine.loop.batch.channelClosed := by
  show (msgs.foldl (Batch.collect pc) machine.loop.batch).channelClosed = _
  generalize machine.loop.batch = b
  induction msgs generalizing b with
  | nil => rfl
  | cons msg msgs ih => exact (ih _).trans (channelClosed_collect pc b msg)

theorem remove_of_loss {pc : Postcard} {source : Source} {ready : Readiness} {loss : Loss}
    (h : (source.processEvents pc ready).loss = some loss) :
    (source.processEvents pc ready).action = .remove := by
  obtain ⟨loss', -, hevents⟩ | ⟨e, -, -, hevents⟩ | ⟨action, -, -, hevents⟩ :=
    source.processEvents_cases pc ready
  · rw [hevents]
  · rw [hevents]
  · rw [hevents] at h
    cases h

theorem core_wake (pc : Postcard) (machine : Machine H) (wake : Wake) :
    (machine.wake pc wake).core = machine.core := by
  cases wake with
  | input input => rfl
  | ready index ready =>
    simp only [Machine.wake]
    split <;> rfl
  | posted index msg =>
    simp only [Machine.wake]
    split <;> rfl
  | enqueued index msg =>
    simp only [Machine.wake]
    split <;> rfl

section Reached

variable {env : Env H} {limit : UInt32} {machine : Machine H}

/-- Only batches change the core, so what they keep holds in every state. -/
theorem Reached.core {I : LooperCore H → Prop}
    (hnew : ∀ handler primaryConnection, I (LooperCore.new handler primaryConnection))
    (hbatch : ∀ {elapsed state state' core core'}, I core →
      dispatchBatch env elapsed state core = (.done (.ok state'), core') → I core')
    (h : Reached env limit machine) : I machine.core := by
  induction h with
  | start handler primaryConnection => exact hnew handler primaryConnection
  | wake wake _ ih =>
    rw [core_wake]
    exact ih
  | dispatch elapsed _ _ hdispatch ih => exact hbatch ih hdispatch

theorem Reached.live (hframes : env.pc.FrameRoundTrip) (h : Reached env limit machine) :
    Live machine.core := by
  refine h.core live_new ?_
  intro elapsed state state' core core' hlive hdispatch
  have hleaves := (rules_live env hframes).dispatchBatch elapsed state hlive
  unfold Ends at hleaves
  rw [hdispatch] at hleaves
  exact hleaves

theorem Reached.tidy (h : Reached env limit machine) : Tidy machine.core := by
  refine h.core (fun handler primaryConnection => tidy_capped handler primaryConnection 0) ?_
  intro elapsed state state' core core' htidy hdispatch
  have hcore := dispatchBatch_snd env elapsed state core
  have hcourse := (paces_execAll env (batchPlan elapsed state).1).always core
  unfold Ends at hcourse
  rw [← hcore, hdispatch] at hcourse
  exact tidy_course hcourse htidy

/-- `disconnected` is called where the loop ends. -/
theorem Reached.not_called (h : Reached env limit machine) :
    .called .disconnected ∉ machine.core.trace := by
  refine h.core (I := fun core => .called .disconnected ∉ core.trace)
    (fun _ _ => List.not_mem_nil) ?_
  intro elapsed state state' core core' hnot hdispatch hmem
  have hran := adds_dispatchBatch env elapsed state core
  unfold Ends at hran
  rw [hdispatch] at hran
  obtain ⟨rs, ns, rest, hran⟩ := hran
  obtain ⟨before, after, hsplit⟩ := List.append_of_mem hmem
  exact (ran_of_lost hran hnot hsplit).2.1 _ rfl

end Reached

section Draining

def pending (b : Batch) : Nat := b.requests.length + b.notifications.length

def arrivals : List Tick → Nat
  | [] => 0
  | tick :: ticks => tick.inputs.length + arrivals ticks

def IsEnd (act : Act) : Prop := act = .close ∨ act = .fail

theorem portion_shrinks {α : Type} (revoked : HashSet UInt16) (elapsed : Nat → Bool)
    (session : α → UInt16) (dispatched : Nat) (as : List α) :
    (portion revoked elapsed session dispatched as).2.2 = [] ∨
      (portion revoked elapsed session dispatched as).2.2.length < as.length := by
  induction as generalizing dispatched with
  | nil => exact .inl rfl
  | cons a as ih =>
    unfold portion
    split
    · exact (ih dispatched).imp_right fun h => Nat.lt_succ_of_lt h
    · split
      · exact .inr (Nat.lt_succ_self _)
      · exact (ih (dispatched + 1)).imp_right fun h => Nat.lt_succ_of_lt h

theorem pending_collect (pc : Postcard) (b : Batch) (input : Input) :
    pending (collectInput pc b input) ≤ pending b + 1 := by
  unfold pending
  cases input with
  | sync req => exact Nat.le_succ _
  | pulse => exact Nat.le_succ _
  | closed => exact Nat.le_succ _
  | message msg =>
    cases msg with
    | control msg => cases msg <;> exact Nat.le_succ _
    | newConnection registers => exact Nat.le_succ _
    | localRevoke sessionId =>
      simp only [collectInput, Batch.collect, Batch.collectRevoke]
      split <;> exact Nat.le_succ _
    | service sessionId payload =>
      simp only [collectInput, Batch.collect]
      split
      · exact Nat.le_succ _
      · next frame _ =>
        cases frame <;> simp only [Batch.collectFrame, List.length_append, List.length_singleton]
          <;> omega

theorem pending_collectAll (pc : Postcard) (b : Batch) (inputs : List Input) :
    pending (inputs.foldl (collectInput pc) b) ≤ pending b + inputs.length := by
  induction inputs generalizing b with
  | nil => exact Nat.le_refl _
  | cons input inputs ih =>
    have hfirst := pending_collect pc b input
    have hrest := ih (collectInput pc b input)
    rw [List.foldl_cons, List.length_cons]
    omega

theorem closed_collectAll (pc : Postcard) {b : Batch} (h : b.channelClosed = true)
    (inputs : List Input) : (inputs.foldl (collectInput pc) b).channelClosed = true := by
  induction inputs generalizing b with
  | nil => exact h
  | cons input inputs ih =>
    apply ih
    cases input with
    | message msg => exact (channelClosed_collect pc b msg).trans h
    | sync req => exact h
    | pulse => exact h
    | closed => rfl

theorem inboundPlan_closed (elapsed : Nat → Bool) (state : LoopState)
    (h : state.batch.channelClosed = true) :
    Act.close ∈ (inboundPlan elapsed state).1 ∨
      (inboundPlan elapsed state).2.batch.channelClosed = true ∧
        pending (inboundPlan elapsed state).2.batch < pending state.batch := by
  have hrequests := portion_shrinks state.batch.revokedSessions elapsed (fun r => r.1) 0
    state.batch.requests
  rw [inboundPlan]
  generalize portion state.batch.revokedSessions elapsed (fun r => r.1) 0 state.batch.requests
    = served at hrequests ⊢
  obtain ⟨requests, dispatched, left⟩ := served
  have hnotifications := portion_shrinks state.batch.revokedSessions elapsed (fun n => n.1)
    dispatched state.batch.notifications
  dsimp only at hrequests ⊢
  generalize portion state.batch.revokedSessions elapsed (fun n => n.1) dispatched
    state.batch.notifications = told at hnotifications ⊢
  obtain ⟨notifications, dispatched', left'⟩ := told
  dsimp only at hnotifications ⊢
  split
  · next hleft =>
    have hless : left.length < state.batch.requests.length := hrequests.resolve_left hleft
    exact .inr ⟨h, Nat.add_lt_add_right hless _⟩
  · split
    · next hleft =>
      have hless : left'.length < state.batch.notifications.length :=
        hnotifications.resolve_left hleft
      exact .inr ⟨h, Nat.add_lt_add_of_le_of_lt (Nat.zero_le _) hless⟩
    · left
      simp

/-- While the channel is closed, an iteration ends the loop or leaves fewer messages
of phase 5. -/
theorem tickPlan_closed (pc : Postcard) {state : LoopState} (h : state.batch.channelClosed = true)
    (tick : Tick) :
    (∃ act ∈ (tickPlan pc state tick).1, IsEnd act) ∨
      (tickPlan pc state tick).2.batch.channelClosed = true ∧
        pending (tickPlan pc state tick).2.batch < pending state.batch + tick.inputs.length := by
  have hclosed := closed_collectAll pc h tick.inputs
  have hpending := pending_collectAll pc state.batch tick.inputs
  unfold tickPlan
  generalize tick.inputs.foldl (collectInput pc) state.batch = b at hclosed hpending
  split
  · exact .inl ⟨.fail, List.mem_singleton_self _, .inr rfl⟩
  · have hbusy : b.isEmpty = false := by simp [Batch.isEmpty, hclosed]
    simp only [hbusy, Bool.false_eq_true, if_false]
    obtain hclose | ⟨hclosed', hless⟩ := inboundPlan_closed tick.elapsed
      ⟨b, state.sharedWriter || b.newConnection = some true⟩ hclosed
    · refine .inl ⟨.close, ?_, .inl rfl⟩
      unfold batchPlan
      simp only [List.mem_append]
      exact .inr (.inr (.inr hclose))
    · exact .inr ⟨hclosed', Nat.lt_of_lt_of_le hless hpending⟩

theorem runPlan_closed (pc : Postcard) {state : LoopState} (h : state.batch.channelClosed = true)
    {ticks : List Tick} (hticks : pending state.batch + arrivals ticks < ticks.length) :
    ∃ act ∈ runPlan pc state ticks, IsEnd act := by
  induction ticks generalizing state with
  | nil => exact absurd hticks (Nat.not_lt_zero _)
  | cons tick ticks ih =>
    rw [arrivals, List.length_cons] at hticks
    obtain ⟨act, hact, hend⟩ | ⟨hclosed, hless⟩ := tickPlan_closed pc h tick
    · exact ⟨act, List.mem_append_left _ hact, hend⟩
    · obtain ⟨act, hact, hend⟩ := ih hclosed (by omega)
      exact ⟨act, List.mem_append_right _ hact, hend⟩

theorem exec_ne_none (env : Env H) {act : Act} (h : IsEnd act) (core : LooperCore H) :
    (act.exec env core).1 ≠ .done none := by
  obtain rfl | rfl := h
  · rw [Act.exec, Code.bind_apply]
    split <;> simp
  · rw [Act.exec, Code.bind_apply]
    split <;> simp

theorem execAll_ne_none (env : Env H) {acts : List Act} (h : ∃ act ∈ acts, IsEnd act)
    (core : LooperCore H) : (execAll env acts core).1 ≠ .done none := by
  obtain ⟨last, hlast, hend⟩ := h
  induction acts generalizing core with
  | nil => exact absurd hlast List.not_mem_nil
  | cons act acts ih =>
    obtain ⟨core', hexec, hall, -⟩ | ⟨hne, hall, -⟩ := execAll_cons env act acts core
    · rw [hall]
      obtain rfl | hlast := List.mem_cons.mp hlast
      · exact absurd (congrArg Prod.fst hexec) (exec_ne_none env hend core)
      · exact ih core' hlast
    · rw [hall]
      exact hne

end Draining

/-- The requests that were outstanding in the first state have been resolved: the entry
of each token that the correlator had was used up since, exactly once, and for a request
that was sent this was a call of one of its closures. The tables are empty. -/
structure Resolved (core core' : LooperCore H) : Prop where
  used : ∀ t, (sessionOf core t).isSome →
    (core'.trace.drop core.trace.length).countP (spends t) = 1
  once : ∀ t, .queued t ∈ core.trace → Pending core t →
    (core'.trace.drop core.trace.length).countP (invokes t) = 1
  entries : core'.dispatch.entries = ∅
  asyncEntries : core'.dispatch.asyncEntries = ∅

section Endings

variable {core core' : LooperCore H} {reason : ExitReason}

theorem used_of_over (hlive : Live core) (htidy : Tidy core) (htidy' : Tidy core')
    (hgrown : Grown core core') (hover : Over reason core') {t : Token}
    (ht : (sessionOf core t).isSome) :
    (core'.trace.drop core.trace.length).countP (spends t) = 1 := by
  obtain ⟨es, htrace⟩ := hgrown
  have howed : 1 ≤ owed core t := by
    rw [hlive.books.agree] at ht
    obtain hpending | hasync | hfiring := ht
    · simp [owed, hpending]
    · simp [owed, hasync]
    · cases hfiring
  have howed' : owed core' t = 0 := by
    simp [owed, Pending, PendingAsync, hover.entries, hover.asyncEntries]
  have hbalance := htidy.balance t
  have hbalance' := htidy'.balance t
  have honce' : core'.trace.countP (makes t) ≤ 1 := (htidy'.once t).trans (by split <;> omega)
  rw [← htrace, List.countP_append, List.countP_append] at hbalance'
  rw [← htrace, List.countP_append] at honce'
  rw [← htrace, List.drop_left]
  omega

theorem once_of_over (hlive : Live core) (hgrown : Grown core core') (hover : Over reason core')
    {t : Token} (hqueued : .queued t ∈ core.trace) (hpending : Pending core t) :
    (core'.trace.drop core.trace.length).countP (invokes t) = 1 := by
  obtain ⟨es, htrace⟩ := hgrown
  have hall : core'.trace.countP (invokes t) = 1 :=
    (settledOnce_of_over hover).once t (htrace ▸ List.mem_append_left es hqueued)
  -- an entry that is still there has not been used
  have hbefore : core.trace.countP (invokes t) = 0 := by
    have hsettled := hlive.books.settled t
    have hle := hlive.books.toLedger.installed_le_one t
    rw [if_pos hpending, countP_settles] at hsettled
    omega
  rw [← htrace, List.countP_append, hbefore] at hall
  rw [← htrace, List.drop_left]
  omega

end Endings

/-- A connection that is found dead is given up. That `disconnected` will be called
is settled by the channel of the looper alone: if it was closed before, then the
loop comes to its end whatever arrives, and with it every outstanding request. -/
theorem connection_loss_fails_tokens (env : Env H) (hframes : env.pc.FrameRoundTrip)
    {limit : UInt32} {machine : Machine H} (hmachine : Reached env limit machine) {index : Nat}
    {source : Source} (hsource : machine.sources[index]? = some source) (ready : Readiness)
    {loss : Loss} (hloss : (source.processEvents env.pc ready).loss = some loss) :
    let machine' := machine.wake env.pc (.ready index ready)
    machine'.sources = machine.sources.eraseIdx index ∧
      ((.called .disconnected ∈ machine'.core.trace ∨ machine'.loop.batch.channelClosed = true) ↔
        machine.loop.batch.channelClosed = true) ∧
      (machine.loop.batch.channelClosed = true → ∀ ticks o core,
        mainLoop env machine'.loop ticks machine'.core = (o, core) →
          (pending machine'.loop.batch + arrivals ticks < ticks.length → o ≠ .done none) ∧
          (o ≠ .done none → (o = .panicked → Undisturbed core) → Resolved machine'.core core)) := by
  intro machine'
  have hreached : Reached env limit machine' := .wake _ hmachine
  have hwake : machine' = machine.processed env.pc index source ready := by
    simp only [machine', Machine.wake, hsource]
  have hclosed : machine'.loop.batch.channelClosed = machine.loop.batch.channelClosed := by
    rw [hwake]
    exact channelClosed_collected env.pc machine _
  refine ⟨?_, ?_, fun hchannel ticks o core hrun => ⟨fun hticks => ?_, fun hended hcalm => ?_⟩⟩
  · rw [hwake]
    simp only [Machine.processed, remove_of_loss hloss, if_true]
  · rw [hclosed]
    exact or_iff_right hreached.not_called
  · have hends := runPlan_closed env.pc (hclosed.trans hchannel) hticks
    have hne := execAll_ne_none env hends machine'.core
    rw [← mainLoop_plan, hrun] at hne
    exact hne
  · have hlive := hreached.live hframes
    have hleaves := (rules_live env hframes).mainLoop machine'.loop ticks hlive
    have hgrown := (related_of_visited env (grown_act env)
      (runPlan env.pc machine'.loop ticks) machine'.core).1
    have hcourse := (paces_execAll env (runPlan env.pc machine'.loop ticks)).always machine'.core
    unfold Ends at hleaves hcourse
    rw [← mainLoop_plan, hrun] at hgrown hcourse
    rw [hrun] at hleaves
    have htidy := tidy_course hcourse hreached.tidy
    obtain ⟨reason, hover⟩ : ∃ reason, Over reason core := by
      cases o with
      | panicked =>
        obtain hbroke | ⟨hover, -⟩ := hleaves
        · exact absurd hbroke (not_cascadeBroke env (hcalm rfl))
        · exact hover
      | done exit =>
        cases exit with
        | none => exact absurd rfl hended
        | some reason => exact ⟨reason, hleaves⟩
    exact ⟨fun t => used_of_over hlive hreached.tidy htidy hgrown hover,
      fun t => once_of_over hlive hgrown hover, hover.entries, hover.asyncEntries⟩

section Samples

def afterBatch (env : Env H) (limit : UInt32) (machine : Machine H) : Machine H :=
  match dispatchBatch env (fun _ => false) machine.loop machine.core with
  | (.done (.ok loop), core) => ⟨loop, machine.sources ++
      if machine.loop.batch.newConnection = some true then [Source.new limit] else [], core⟩
  | _ => machine

theorem reached_afterBatch {env : Env H} {limit : UInt32} {machine : Machine H}
    (h : Reached env limit machine) (hbatch : machine.loop.batch.isEmpty = false) :
    Reached env limit (afterBatch env limit machine) := by
  unfold afterBatch
  split
  · next hdispatch => exact .dispatch _ h hbatch hdispatch
  · exact h

def env : Env Unit := Env.idle postcard

def handed : Machine Unit :=
  Machine.wake env.pc ⟨⟨Batch.new, false⟩, [], LooperCore.new () ⟨1⟩⟩
    (.input (.message (.newConnection true)))

def asking : Machine Unit := (afterBatch env 1024 handed).wake env.pc (.input (.sync ⟨1, [7]⟩))

def connected : Machine Unit := afterBatch env 1024 asking

theorem reached_connected : Reached env 1024 connected := by
  have hhanded : Reached env 1024 handed := .wake _ (.start () ⟨1⟩)
  have hasking : Reached env 1024 asking := .wake _ (reached_afterBatch hhanded rfl)
  exact reached_afterBatch hasking rfl

def hangup : Readiness := ⟨true, false, [], []⟩

theorem connection_loss_fails_tokens_closed :
    let machine := connected.wake postcard (.input .closed)
    let run := mainLoop env (machine.wake postcard (.ready 0 hangup)).loop [.of []]
      (machine.wake postcard (.ready 0 hangup)).core
    machine.loop.batch.channelClosed = true ∧ Pending machine.core 0 ∧
      run.1 = .done (some .disconnected) ∧ Resolved machine.core run.2 ∧
      (run.2.trace.drop machine.core.trace.length).countP (invokes 0) = 1 := by
  intro machine run
  have hreached : Reached env 1024 machine := .wake _ reached_connected
  have hloss : ((Source.new 1024).processEvents postcard hangup).loss = some .endOfStream := rfl
  have hsource : machine.sources[0]? = some (Source.new 1024) := rfl
  obtain ⟨-, -, hclosed⟩ :=
    connection_loss_fails_tokens env postcard_frame hreached hsource hangup hloss
  obtain ⟨hends, hresolved⟩ := hclosed rfl [.of []] run.1 run.2 rfl
  have hpending : Pending machine.core 0 := by decide
  have hdone : run.1 = .done (some .disconnected) := rfl
  have hall : Resolved machine.core run.2 :=
    hresolved (hends (by decide)) (by simp [hdone])
  exact ⟨rfl, hpending, hdone, hall, hall.once 0 (by decide) hpending⟩

def isCall : Event → Bool
  | .called _ => true
  | _ => false

/-- The stream ends while the channel of the looper is open: the connection is gone,
the request stays outstanding, and nobody is told. -/
theorem silent_connection_loss :
    let machine := connected.wake postcard (.ready 0 hangup)
    Reached env 1024 connected ∧ Reached env 1024 machine ∧
      connected.sources = [Source.new 1024] ∧
      ((Source.new 1024).processEvents postcard hangup).loss = some .endOfStream ∧
      machine.sources = [] ∧ machine.loop.batch.isEmpty = true ∧ ¬ Told machine ∧
      machine.core.activeSession.correlator.sessionOf 0 = some 1 := by
  refine ⟨reached_connected, .wake _ reached_connected, rfl, rfl, rfl, rfl, ?_, rfl⟩
  have htrace : (connected.wake postcard (.ready 0 hangup)).core.trace.all (!isCall ·) = true := by
    decide +kernel
  rintro (h | h | h | h)
  · exact absurd (List.all_eq_true.mp htrace _ h) (by simp [isCall])
  · exact absurd (List.all_eq_true.mp htrace _ h) (by simp [isCall])
  · cases h
  · cases h

end Samples

end Pane.ConnectionLoss
