import Pane.BatchLimit
import Pane.BatchScheduling

namespace Pane.Revocations

open Pane.HashTable Pane.Messages Pane.Callbacks Pane.Unwinding Pane.LooperState
open Pane.CoreDispatch Pane.CoreRequest Pane.Looper Pane.CoreRuns Pane.LooperPlan
open Pane.CallbackEffects (trySend_apply)
open Pane.ContextEffects Pane.EventFilters Pane.BatchLimit Pane.ArrivalOrder Pane.BatchScheduling
open Pane.PostcardFormat

variable {H : Type} (env : Env H) {core core' : LooperCore H}

section Visits

def planEnd (pc : Postcard) : LoopState → List Tick → LoopState
  | state, [] => state
  | state, tick :: ticks => planEnd pc (tickPlan pc state tick).2 ticks

theorem runPlan_append (pc : Postcard) (state : LoopState) (before after : List Tick) :
    runPlan pc state (before ++ after) =
      runPlan pc state before ++ runPlan pc (planEnd pc state before) after := by
  induction before generalizing state with
  | nil => rfl
  | cons tick before ih => rw [List.cons_append, runPlan, runPlan, ih, List.append_assoc, planEnd]

theorem runTicks_eq (state : LoopState) (ticks : List Tick) :
    runTicks env state ticks = unlessExit (execAll env (runPlan env.pc state ticks))
      (pure (.ok (planEnd env.pc state ticks))) := by
  induction ticks generalizing state with
  | nil => rfl
  | cons tick ticks ih =>
    rw [runTicks, tickStep_eq, unlessExit_bind _ _ (by exact fun _ => rfl), runPlan,
      unlessExit_append, planEnd]
    exact congrArg _ (ih _)

theorem runTicks_ok {state state' : LoopState} {ticks : List Tick}
    (h : runTicks env state ticks core = (.done (.ok state'), core')) :
    execAll env (runPlan env.pc state ticks) core = (.done none, core') ∧
      state' = planEnd env.pc state ticks := by
  rw [runTicks_eq, unlessExit] at h
  cases hexec : execAll env (runPlan env.pc state ticks) core with
  | mk o core₁ =>
    rw [hexec] at h
    cases o with
    | panicked => cases h
    | done exit =>
      cases exit with
      | some reason => cases h
      | none =>
        cases h
        exact ⟨rfl, rfl⟩

theorem visited_initial (acts : List Act) (core : LooperCore H) :
    (visited env acts core).map Prod.fst <+: acts := by
  induction acts generalizing core with
  | nil => exact List.prefix_rfl
  | cons act acts ih =>
    rw [visited, List.map_cons]
    refine (List.prefix_cons_inj act).mpr ?_
    split
    · exact ih _
    · exact List.nil_prefix

theorem visited_append {acts : List Act} (h : execAll env acts core = (.done none, core'))
    (later : List Act) :
    visited env (acts ++ later) core = visited env acts core ++ visited env later core' := by
  induction acts generalizing core with
  | nil =>
    cases h
    rfl
  | cons act acts ih =>
    obtain ⟨core₁, hexec, hall, hvisited⟩ | ⟨hne, hall, -⟩ := execAll_cons env act acts core
    · rw [List.cons_append, visited, hexec, hvisited]
      exact congrArg ((act, core) :: ·) (ih (hall.symm.trans h))
    · rw [← hall, h] at hne
      exact absurd rfl hne

theorem visited_all {acts : List Act} (h : execAll env acts core = (.done none, core')) :
    (visited env acts core).map Prod.fst = acts := by
  induction acts generalizing core with
  | nil => rfl
  | cons act acts ih =>
    obtain ⟨core₁, -, hall, hvisited⟩ | ⟨hne, hall, -⟩ := execAll_cons env act acts core
    · rw [hvisited, List.map_cons]
      exact congrArg (act :: ·) (ih (hall.symm.trans h))
    · rw [← hall, h] at hne
      exact absurd rfl hne

end Visits

section Collecting

variable {pc : Postcard} {b b₁ b₂ : Batch} {news news' : List UInt16}

def revokedBy (pc : Postcard) (payload : Bytes) : Option UInt16 :=
  match pc.controlFromBytes payload with
  | some (.revokeInterest sessionId) => some sessionId
  | _ => none

theorem revokedBy_toAllocvec (hpc : pc.ControlRoundTrip) (s : UInt16) :
    (pc.controlToAllocvec (.revokeInterest s)).toList.filterMap (revokedBy pc) = [s] := by
  obtain ⟨payload, hto, hfrom⟩ := hpc (.revokeInterest s)
  rw [hto, Option.toList_some, List.filterMap_cons_some (b := s)]
  · rfl
  · rw [revokedBy, hfrom]

/-- Between two states of a batch, these sessions are revoked for the first time. -/
structure Revoking (pc : Postcard) (b b' : Batch) (news : List UInt16) : Prop where
  writes : b'.ctlWrites.filterMap (revokedBy pc) = b.ctlWrites.filterMap (revokedBy pc) ++ news
  nodup : news.Nodup
  fresh : ∀ s ∈ news, s ∉ b.revokedSessions
  revoked : ∀ s, s ∈ b'.revokedSessions ↔ s ∈ b.revokedSessions ∨ s ∈ news

theorem Revoking.refl (b : Batch) : Revoking pc b b [] :=
  ⟨(List.append_nil _).symm, List.nodup_nil, nofun, fun s => by simp⟩

theorem Revoking.trans (h : Revoking pc b b₁ news) (h' : Revoking pc b₁ b₂ news') :
    Revoking pc b b₂ (news ++ news') where
  writes := by rw [h'.writes, h.writes, List.append_assoc]
  nodup := by
    refine List.nodup_append'.mpr ⟨h.nodup, h'.nodup, fun s hs hs' => ?_⟩
    exact h'.fresh s hs' ((h.revoked s).mpr (.inr hs))
  fresh s hs hb := by
    obtain hs | hs := List.mem_append.mp hs
    · exact h.fresh s hs hb
    · exact h'.fresh s hs ((h.revoked s).mpr (.inl hb))
  revoked s := by rw [h'.revoked, h.revoked, List.mem_append, or_assoc]

theorem revoking_collectRevoke (hpc : pc.ControlRoundTrip) (s : UInt16) (b : Batch) :
    ∃ news, Revoking pc b (b.collectRevoke pc s) news ∧
      s ∈ (b.collectRevoke pc s).revokedSessions := by
  rw [Batch.collectRevoke]
  split
  next hs => exact ⟨[], Revoking.refl b, hs⟩
  next hs =>
    refine ⟨[s], ⟨?_, List.nodup_singleton s, ?_, fun t => ?_⟩, ?_⟩
    · rw [List.filterMap_append, revokedBy_toAllocvec hpc]
    · intro t ht
      rwa [List.mem_singleton.mp ht]
    · rw [AList.mem_insert, List.mem_singleton, or_comm]
    · exact (AList.mem_insert _).mpr (.inl rfl)

theorem revoking_collectInput (hpc : pc.ControlRoundTrip) (input : Input) (b : Batch) :
    ∃ news, Revoking pc b (collectInput pc b input) news ∧
      ∀ s, input = .message (.localRevoke s) → s ∈ (collectInput pc b input).revokedSessions := by
  have hnone {b' : Batch} (hinput : ∀ s, input ≠ .message (.localRevoke s))
      (hrevoked : b'.revokedSessions = b.revokedSessions) (hwrites : b'.ctlWrites = b.ctlWrites) :
      ∃ news, Revoking pc b b' news ∧
        ∀ s, input = .message (.localRevoke s) → s ∈ b'.revokedSessions := by
    refine ⟨[], ⟨?_, List.nodup_nil, List.forall_mem_nil _, fun s => ?_⟩,
      fun s hs => absurd hs (hinput s)⟩
    · rw [hwrites, List.append_nil]
    · simp [hrevoked]
  cases input with
  | sync req => exact hnone (by simp) rfl rfl
  | pulse => exact hnone (by simp) rfl rfl
  | closed => exact hnone (by simp) rfl rfl
  | message msg =>
    cases msg with
    | newConnection registers => exact hnone (by simp) rfl rfl
    | control msg => cases msg <;> exact hnone (by simp) rfl rfl
    | service sessionId payload =>
      rw [collectInput, Batch.collect]
      split
      · exact hnone (by simp) rfl rfl
      next frame _ => cases frame <;> exact hnone (by simp) rfl rfl
    | localRevoke sessionId =>
      obtain ⟨news, hnews, hmem⟩ := revoking_collectRevoke hpc sessionId b
      refine ⟨news, hnews, fun s hs => ?_⟩
      cases hs
      exact hmem

theorem revoking_foldl (hpc : pc.ControlRoundTrip) (inputs : List Input) (b : Batch) :
    ∃ news, Revoking pc b (inputs.foldl (collectInput pc) b) news ∧
      ∀ s, .message (.localRevoke s) ∈ inputs →
        s ∈ (inputs.foldl (collectInput pc) b).revokedSessions := by
  induction inputs generalizing b with
  | nil => exact ⟨[], Revoking.refl b, nofun⟩
  | cons input inputs ih =>
    obtain ⟨news, hnews, hinput⟩ := revoking_collectInput hpc input b
    obtain ⟨news', hnews', hinputs⟩ := ih (collectInput pc b input)
    refine ⟨news ++ news', hnews.trans hnews', fun s hs => ?_⟩
    obtain hs | hs := List.mem_cons.mp hs
    · exact (hnews'.revoked s).mpr (.inl (hinput s hs.symm))
    · exact hinputs s hs

end Collecting

section Plans

variable {pc : Postcard} {state : LoopState} {s : UInt16}

def revocationOf (pc : Postcard) : Act → Option UInt16
  | .op (.write payload) => revokedBy pc payload
  | _ => none

theorem filterMap_revocationOf {α : Type} {f : α → Act} (h : ∀ a, revocationOf pc (f a) = none)
    (as : List α) : (as.map f).filterMap (revocationOf pc) = [] := by
  rw [List.filterMap_map, List.filterMap_eq_nil_iff]
  exact fun a _ => h a

def earlyPlan (b : Batch) : List Act :=
  b.syncRequests.map (fun r => .op (.syncRequest r)) ++ frameworkPlan b

theorem filterMap_earlyPlan (b : Batch) :
    (earlyPlan b).filterMap (revocationOf pc) = [] := by
  simp only [earlyPlan, frameworkPlan, List.filterMap_append]
  rw [filterMap_revocationOf fun _ => rfl, filterMap_revocationOf fun _ => rfl,
    filterMap_revocationOf fun _ => rfl, filterMap_revocationOf fun _ => rfl,
    filterMap_revocationOf fun _ => rfl, filterMap_revocationOf fun _ => rfl,
    filterMap_revocationOf fun _ => rfl]
  rfl

theorem filterMap_inboundPlan (elapsed : Nat → Bool) (state : LoopState) :
    (inboundPlan elapsed state).1.filterMap (revocationOf pc) = [] := by
  have hrequests (as : List (UInt16 × Token × Bytes)) :
      (as.map (requestAct state.sharedWriter)).filterMap (revocationOf pc) = [] :=
    filterMap_revocationOf (fun _ => rfl) as
  have hnotifications (as : List (UInt16 × Bytes)) :
      (as.map notificationAct).filterMap (revocationOf pc) = [] :=
    filterMap_revocationOf (fun _ => rfl) as
  rw [inboundPlan]
  dsimp only
  split
  · exact hrequests _
  · split
    · rw [List.filterMap_append, hrequests, hnotifications]
      rfl
    · rw [List.filterMap_append, List.filterMap_append, hrequests, hnotifications]
      split <;> rfl

theorem inboundPlan_batch (elapsed : Nat → Bool) (state : LoopState) :
    (inboundPlan elapsed state).2.batch.revokedSessions = state.batch.revokedSessions ∧
      (inboundPlan elapsed state).2.batch.ctlWrites = [] := by
  rw [inboundPlan]
  dsimp only
  split
  · exact ⟨rfl, rfl⟩
  · split
    · exact ⟨rfl, rfl⟩
    · exact ⟨rfl, rfl⟩

theorem batchPlan_eq (elapsed : Nat → Bool) (state : LoopState) :
    (batchPlan elapsed state).1 = earlyPlan state.batch ++
      (state.batch.ctlWrites.map (fun w => .op (.write w)) ++ (inboundPlan elapsed { state with
        sharedWriter := state.sharedWriter || state.batch.newConnection = some true }).1) :=
  (List.append_assoc ..).symm

theorem filterMap_batchPlan (elapsed : Nat → Bool) (state : LoopState) :
    (batchPlan elapsed state).1.filterMap (revocationOf pc) =
      state.batch.ctlWrites.filterMap (revokedBy pc) := by
  rw [batchPlan_eq, List.filterMap_append, List.filterMap_append, filterMap_earlyPlan,
    filterMap_inboundPlan, List.nil_append, List.append_nil, List.filterMap_map]
  rfl

theorem tickPlan_revocations (hpc : pc.ControlRoundTrip) (h : state.batch.ctlWrites = [])
    (tick : Tick) : ∃ news,
      (tickPlan pc state tick).1.filterMap (revocationOf pc) = news ∧ news.Nodup ∧
      (∀ s ∈ news, s ∉ state.batch.revokedSessions) ∧
      (∀ s, s ∈ (tickPlan pc state tick).2.batch.revokedSessions ↔
        s ∈ state.batch.revokedSessions ∨ s ∈ news) ∧
      (tickPlan pc state tick).2.batch.ctlWrites = [] := by
  rw [tickPlan]
  split
  · exact ⟨[], rfl, List.nodup_nil, List.forall_mem_nil _, fun s => by simp, h⟩
  · obtain ⟨news, hnews, -⟩ := revoking_foldl hpc tick.inputs state.batch
    have hwrites := hnews.writes
    rw [h, List.filterMap_nil, List.nil_append] at hwrites
    dsimp only
    split
    next hempty =>
      have hnone : (tick.inputs.foldl (collectInput pc) state.batch).ctlWrites = [] := by
        rw [Batch.isEmpty] at hempty
        simp only [Bool.and_eq_true, List.isEmpty_iff] at hempty
        exact hempty.1.1.2
      rw [hnone] at hwrites
      obtain rfl : news = [] := hwrites.symm
      exact ⟨[], rfl, List.nodup_nil, List.forall_mem_nil _, hnews.revoked, hnone⟩
    · obtain ⟨hrevoked, hdone⟩ := inboundPlan_batch tick.elapsed
        ⟨tick.inputs.foldl (collectInput pc) state.batch, state.sharedWriter ||
          (tick.inputs.foldl (collectInput pc) state.batch).newConnection = some true⟩
      refine ⟨news, ?_, hnews.nodup, hnews.fresh, fun s => ?_, hdone⟩
      · exact (filterMap_batchPlan tick.elapsed _).trans hwrites
      exact (Iff.of_eq (congrArg (s ∈ ·) hrevoked)).trans (hnews.revoked s)

theorem runPlan_revocations (hpc : pc.ControlRoundTrip) (h : state.batch.ctlWrites = [])
    (ticks : List Tick) :
    ((runPlan pc state ticks).filterMap (revocationOf pc)).Nodup ∧
      ∀ s ∈ (runPlan pc state ticks).filterMap (revocationOf pc),
        s ∉ state.batch.revokedSessions := by
  induction ticks generalizing state with
  | nil => exact ⟨List.nodup_nil, nofun⟩
  | cons tick ticks ih =>
    obtain ⟨news, hacts, hnodup, hfresh, hrevoked, hdone⟩ := tickPlan_revocations hpc h tick
    obtain ⟨hnodup', hfresh'⟩ := ih hdone
    rw [runPlan, List.filterMap_append, hacts]
    constructor
    · refine List.nodup_append'.mpr ⟨hnodup, hnodup', fun s hs hs' => ?_⟩
      exact hfresh' s hs' ((hrevoked s).mpr (.inr hs))
    · intro s hs hold
      obtain hs | hs := List.mem_append.mp hs
      · exact hfresh s hs hold
      · exact hfresh' s hs ((hrevoked s).mpr (.inl hold))

theorem planEnd_ctlWrites (hpc : pc.ControlRoundTrip) (h : state.batch.ctlWrites = [])
    (ticks : List Tick) : (planEnd pc state ticks).batch.ctlWrites = [] := by
  induction ticks generalizing state with
  | nil => exact h
  | cons tick ticks ih =>
    obtain ⟨-, -, -, -, -, hdone⟩ := tickPlan_revocations hpc h tick
    exact ih hdone

def Mutes (pc : Postcard) (s : UInt16) (act : Act) : Prop :=
  ∀ e ∈ ofAct pc act, handedTo s e = none

theorem mutes_map {α : Type} {f : α → Act} {as : List α} (h : ∀ a ∈ as, Mutes pc s (f a)) :
    ∀ act ∈ as.map f, Mutes pc s act := by
  intro act hact
  obtain ⟨a, ha, rfl⟩ := List.mem_map.mp hact
  exact h a ha

theorem mutes_earlyPlan (b : Batch) : ∀ act ∈ earlyPlan b, Mutes pc s act := by
  simp only [earlyPlan, frameworkPlan, List.forall_mem_append]
  refine ⟨mutes_map fun _ _ => ?_, mutes_map fun _ _ => ?_, mutes_map fun _ _ => ?_,
    mutes_map fun _ _ => ?_, mutes_map fun _ _ => ?_, mutes_map fun _ _ => ?_,
    mutes_map fun _ _ => ?_⟩ <;>
  simp [Mutes, ofAct, ofOp, ofFrame, ofMessage, handedTo]

theorem mutes_inboundPlan (elapsed : Nat → Bool) {state : LoopState}
    (h : s ∈ state.batch.revokedSessions) :
    ∀ act ∈ (inboundPlan elapsed state).1, Mutes pc s act := by
  have hne {t : UInt16} (ht : t ∉ state.batch.revokedSessions) : t ≠ s := fun he => ht (he ▸ h)
  have hrequests (dispatched : Nat) : ∀ act ∈ (portion state.batch.revokedSessions elapsed
      (fun r => r.1) dispatched state.batch.requests).1.map (requestAct state.sharedWriter),
      Mutes pc s act :=
    mutes_map fun r hr => by
      simp [Mutes, requestAct, ofAct, ofOp, ofFrame, handedTo, hne (mem_portion hr).2]
  have hnotifications (dispatched : Nat) : ∀ act ∈ (portion state.batch.revokedSessions elapsed
      (fun n => n.1) dispatched state.batch.notifications).1.map notificationAct, Mutes pc s act :=
    mutes_map fun n hn => by
      simp [Mutes, notificationAct, ofAct, ofOp, ofFrame, handedTo, hne (mem_portion hn).2]
  have hclose : ∀ act ∈ if state.batch.channelClosed then [Act.close] else [], Mutes pc s act := by
    split
    · simp [Mutes, ofAct, handedTo]
    · exact List.forall_mem_nil _
  rw [inboundPlan]
  dsimp only
  split
  · exact hrequests 0
  · split
    · exact List.forall_mem_append.mpr ⟨hrequests 0, hnotifications _⟩
    · exact List.forall_mem_append.mpr
        ⟨hrequests 0, List.forall_mem_append.mpr ⟨hnotifications _, hclose⟩⟩

def Muted (pc : Postcard) (s : UInt16) (state : LoopState) (tick : Tick) : Prop :=
  s ∈ (tick.inputs.foldl (collectInput pc) state.batch).revokedSessions

theorem mutes_tickPlan {tick : Tick} (h : Muted pc s state tick) :
    ∀ act ∈ (tickPlan pc state tick).1, Mutes pc s act := by
  rw [tickPlan]
  split
  · exact List.forall_mem_singleton.mpr (List.forall_mem_nil _)
  · dsimp only
    split
    · exact List.forall_mem_nil _
    · rw [batchPlan_eq]
      refine List.forall_mem_append.mpr ⟨mutes_earlyPlan _, List.forall_mem_append.mpr ⟨?_, ?_⟩⟩
      · exact mutes_map fun _ _ => by simp [Mutes, ofAct, ofOp]
      · exact mutes_inboundPlan tick.elapsed h

theorem muted_of_mem (hpc : pc.ControlRoundTrip) (h : s ∈ state.batch.revokedSessions)
    (tick : Tick) : Muted pc s state tick := by
  obtain ⟨news, hnews, -⟩ := revoking_foldl hpc tick.inputs state.batch
  exact (hnews.revoked s).mpr (.inl h)

theorem mem_tickPlan {tick : Tick} (h : Muted pc s state tick)
    (hpolled : tick.pollFails = false) :
    s ∈ (tickPlan pc state tick).2.batch.revokedSessions := by
  rw [tickPlan, if_neg (by simp [hpolled])]
  dsimp only
  split
  · exact h
  · have hrevoked := (inboundPlan_batch tick.elapsed
      ⟨tick.inputs.foldl (collectInput pc) state.batch, state.sharedWriter ||
        (tick.inputs.foldl (collectInput pc) state.batch).newConnection = some true⟩).1
    exact (congrArg (s ∈ ·) hrevoked).mpr h

theorem mutes_runPlan (hpc : pc.ControlRoundTrip) (h : s ∈ state.batch.revokedSessions)
    (hwrites : state.batch.ctlWrites = []) (ticks : List Tick) :
    ∀ act ∈ runPlan pc state ticks, Mutes pc s act := by
  induction ticks generalizing state with
  | nil => exact nofun
  | cons tick ticks ih =>
    obtain ⟨news, -, -, -, hrevoked, hdone⟩ := tickPlan_revocations hpc hwrites tick
    exact List.forall_mem_append.mpr ⟨mutes_tickPlan (muted_of_mem hpc h tick),
      ih ((hrevoked s).mpr (.inl h)) hdone⟩

end Plans

section Silence

variable {s : UInt16}

theorem admits_muted (s : UInt16) : Admits (fun e => handedTo s e = none) fun _ => True where
  work e he := by cases e <;> simp_all [isWork, handedTo]
  panicked _ _ := rfl
  onFailed _ := rfl
  notes _ _ := trivial

theorem handedFrames_execAll {acts : List Act} (h : ∀ act ∈ acts, Mutes env.pc s act)
    (core : LooperCore H) : handedFrames s (execAll env acts core).2 = handedFrames s core := by
  have hmoves : Moves (Shows fun e => handedTo s e = none) (Shows fun e => handedTo s e = none)
      (execAll env acts) :=
    moves_execAll env fun act hact =>
      only_act env (admits_muted s) act (h act hact) fun _ _ _ => trivial
  obtain ⟨es, htrace, hes⟩ := (hmoves.always core).trace
  have hnone : es.filterMap (handedTo s) = [] := List.filterMap_eq_nil_iff.mpr hes
  rw [handedFrames, handedFrames, htrace, List.filterMap_append, hnone, List.append_nil]

theorem execAll_writes (payloads : List Bytes) (core : LooperCore H) :
    ∃ core', execAll env (payloads.map fun w => .op (.write w)) core = (.done none, core') := by
  induction payloads generalizing core with
  | nil => exact ⟨core, rfl⟩
  | cons payload payloads ih =>
    rw [List.map_cons, execAll, Code.firstOf_cons, Code.orNext, exec_write, Code.bind_apply]
    rw [trySend_apply]
    cases env.trySend core.trace.length with
    | ok u => exact ih _
    | error e => exact ih _

def Attempts (s : UInt16) (core core' : LooperCore H) : Prop :=
  ∃ payload, revokedBy env.pc payload = some s ∧
    (core' = core.log (.sent 0 payload) ∨ core' = core.log (.refused 0 payload))

theorem attempts_of_revocationOf {act : Act} (h : revocationOf env.pc act = some s)
    (core : LooperCore H) : Attempts env s core (act.exec env core).2 := by
  cases act with
  | close => nomatch h
  | fail => nomatch h
  | op op =>
    cases op with
    | write payload =>
      refine ⟨payload, h, ?_⟩
      rw [exec_write, Code.bind_apply, trySend_apply]
      cases env.trySend core.trace.length with
      | ok u => exact .inl rfl
      | error e => exact .inr rfl
    | _ => nomatch h

end Silence

section Runs

variable {s : UInt16} {state : LoopState} {ticks : List Tick}

def revocations (ticks : List Tick) (core : LooperCore H) : List UInt16 :=
  (visited env (runPlan env.pc ⟨Batch.new, false⟩ ticks) core).filterMap
    fun v => revocationOf env.pc v.1

theorem filterMap_visited (acts : List Act) (core : LooperCore H) :
    (visited env acts core).filterMap (fun v => revocationOf env.pc v.1) =
      ((visited env acts core).map Prod.fst).filterMap (revocationOf env.pc) := by
  rw [List.filterMap_map]
  rfl

theorem nodup_revocations (hpc : env.pc.ControlRoundTrip) (ticks : List Tick)
    (core : LooperCore H) : (revocations env ticks core).Nodup := by
  rw [revocations, filterMap_visited]
  have hsublist := (visited_initial env (runPlan env.pc ⟨Batch.new, false⟩ ticks) core).sublist
  exact (runPlan_revocations hpc rfl ticks).1.sublist (hsublist.filterMap _)

theorem planEnd_revoked (hpc : env.pc.ControlRoundTrip) (h : state.batch.ctlWrites = [])
    (ticks : List Tick) (s : UInt16) :
    s ∈ (planEnd env.pc state ticks).batch.revokedSessions ↔
      s ∈ state.batch.revokedSessions ∨
        s ∈ (runPlan env.pc state ticks).filterMap (revocationOf env.pc) := by
  induction ticks generalizing state with
  | nil => simp [planEnd, runPlan]
  | cons tick ticks ih =>
    obtain ⟨news, hacts, -, -, hrevoked, hdone⟩ := tickPlan_revocations hpc h tick
    rw [planEnd, ih hdone, hrevoked, runPlan, List.filterMap_append, hacts, List.mem_append,
      or_assoc]

theorem mem_visited_tickPlan {tick : Tick} (hpolled : tick.pollFails = false)
    (hearly : (execAll env (earlyPlan (tick.inputs.foldl (collectInput env.pc) state.batch))
      core).1 = .done none)
    (hs : s ∈ (tick.inputs.foldl (collectInput env.pc) state.batch).ctlWrites.filterMap
      (revokedBy env.pc)) (later : List Act) :
    s ∈ (visited env ((tickPlan env.pc state tick).1 ++ later) core).filterMap
      fun v => revocationOf env.pc v.1 := by
  rw [tickPlan, if_neg (by simp [hpolled])]
  dsimp only
  generalize tick.inputs.foldl (collectInput env.pc) state.batch = b at hearly hs ⊢
  have hne : b.isEmpty = false := by
    cases hwrites : b.ctlWrites with
    | nil =>
      rw [hwrites] at hs
      cases hs
    | cons w ws => simp [Batch.isEmpty, hwrites]
  rw [if_neg (by simp [hne]), batchPlan_eq, List.append_assoc, List.append_assoc]
  cases hexec : execAll env (earlyPlan b) core with
  | mk o core₁ =>
    rw [hexec] at hearly
    obtain rfl : o = .done none := hearly
    obtain ⟨core₂, hwrites⟩ := execAll_writes env b.ctlWrites core₁
    have hvisited := visited_all env hwrites
    rw [visited_append env hexec, visited_append env hwrites, List.filterMap_append,
      List.filterMap_append, filterMap_visited env (b.ctlWrites.map _), hvisited,
      List.filterMap_map]
    exact List.mem_append_right _ (List.mem_append_left _ hs)

theorem mem_revocations (hpc : env.pc.ControlRoundTrip) {before after : List Tick} {tick : Tick}
    {start : LooperCore H}
    (hbefore : runTicks env ⟨Batch.new, false⟩ before start = (.done (.ok state), core))
    (hpolled : tick.pollFails = false) (hrevoke : .message (.localRevoke s) ∈ tick.inputs)
    (hearly : (execAll env (earlyPlan (tick.inputs.foldl (collectInput env.pc) state.batch))
      core).1 = .done none) : s ∈ revocations env (before ++ tick :: after) start := by
  obtain ⟨hexec, hstate⟩ := runTicks_ok env hbefore
  have hnone : state.batch.ctlWrites = [] := hstate ▸ planEnd_ctlWrites hpc rfl before
  have hold : s ∈ (planEnd env.pc ⟨Batch.new, false⟩ before).batch.revokedSessions ↔ _ :=
    planEnd_revoked env hpc rfl before s
  obtain ⟨news, hnews, hmem⟩ := revoking_foldl hpc tick.inputs state.batch
  have hwrites := hnews.writes
  rw [hnone, List.filterMap_nil, List.nil_append] at hwrites
  rw [revocations, runPlan_append, ← hstate, visited_append env hexec, List.filterMap_append,
    List.mem_append, runPlan]
  obtain hs | hs := (hnews.revoked s).mp (hmem s hrevoke)
  · refine .inl ?_
    rw [filterMap_visited, visited_all env hexec]
    obtain hs | hs := hold.mp (hstate ▸ hs)
    · exact absurd hs (AList.notMem_empty s)
    · exact hs
  · exact .inr (mem_visited_tickPlan env hpolled hearly (hwrites ▸ hs) _)

theorem handedFrames_revoked (hpc : env.pc.ControlRoundTrip) {before after : List Tick}
    {tick : Tick} {start : LooperCore H}
    (hbefore : runTicks env ⟨Batch.new, false⟩ before start = (.done (.ok state), core))
    (hpolled : tick.pollFails = false) (hrevoke : .message (.localRevoke s) ∈ tick.inputs) :
    handedFrames s (mainLoop env ⟨Batch.new, false⟩ (before ++ tick :: after) start).2 =
      handedFrames s core := by
  obtain ⟨hexec, hstate⟩ := runTicks_ok env hbefore
  have hnone : state.batch.ctlWrites = [] := hstate ▸ planEnd_ctlWrites hpc rfl before
  obtain ⟨news, -, hmem⟩ := revoking_foldl hpc tick.inputs state.batch
  have hmuted : Muted env.pc s state tick := hmem s hrevoke
  obtain ⟨-, -, -, -, -, hdone⟩ := tickPlan_revocations hpc hnone tick
  rw [mainLoop_plan, runPlan_append, execAll_append, Code.orNext, hexec, ← hstate, runPlan]
  refine handedFrames_execAll env (List.forall_mem_append.mpr ⟨mutes_tickPlan hmuted, ?_⟩) core
  exact mutes_runPlan hpc (mem_tickPlan hmuted hpolled) hdone after

theorem filter_of_sifted {α : Type} {skipped : α → Prop} {p : α → Bool}
    (hp : ∀ a, p a → ¬ skipped a) {as bs : List α} (h : Sifted skipped as bs) :
    as.filter p = bs.filter p := by
  induction h with
  | nil => rfl
  | keep a _ ih => rw [List.filter_cons, List.filter_cons, ih]
  | skip ha _ ih => rw [List.filter_cons_of_neg fun h => hp _ h ha, ih]

theorem filter_of_scheduled {α : Type} {revoked : UInt16 → Prop} {session : α → UInt16}
    {arrived dispatched left : List α} (h : Scheduled revoked session arrived dispatched left)
    (hs : ¬ revoked s) :
    arrived.filter (fun a => session a = s) =
      dispatched.filter (fun a => session a = s) ++ left.filter (fun a => session a = s) := by
  obtain ⟨taken, rfl, hsifted⟩ := h
  rw [List.filter_append, filter_of_sifted (fun a ha => ?_) hsifted]
  rwa [of_decide_eq_true ha]

end Runs

/-- Revoked sessions stay silent. For each session phase 4 makes at most one attempt
to tell the server; a tick that takes a revocation makes it, unless the looper ends
before phase 4, and from then on nothing of the session is handed over. Of all other
sessions nothing is skipped. -/
theorem revoked_sessions_stay_silent (env : Env H) (hpc : env.pc.ControlRoundTrip) (handler : H)
    (primaryConnection : PeerScope) (ticks : List Tick) :
    let start := LooperCore.new handler primaryConnection
    (revocations env ticks start).Nodup ∧
    (∀ v ∈ visited env (runPlan env.pc ⟨Batch.new, false⟩ ticks) start, ∀ s,
      revocationOf env.pc v.1 = some s → Attempts env s v.2 (v.1.exec env v.2).2) ∧
    (∀ before tick after state core s, ticks = before ++ tick :: after →
      runTicks env ⟨Batch.new, false⟩ before start = (.done (.ok state), core) →
      tick.pollFails = false → .message (.localRevoke s) ∈ tick.inputs →
      handedFrames s (mainLoop env ⟨Batch.new, false⟩ ticks start).2 = handedFrames s core ∧
      ((execAll env (earlyPlan (tick.inputs.foldl (collectInput env.pc) state.batch)) core).1 =
        .done none → s ∈ revocations env ticks start)) ∧
    ∀ state core s,
      runTicks env ⟨Batch.new, false⟩ ticks start = (.done (.ok state), core) → ¬ Revoked ticks s →
      (requestsIn env.pc ticks).filter (fun r => r.1 = s) =
        (core.trace.filterMap requestIn).filter (fun r => r.1 = s) ++
          state.batch.requests.filter (fun r => r.1 = s) ∧
      (notificationsIn env.pc ticks).filter (fun n => n.1 = s) =
        (core.trace.filterMap notificationIn).filter (fun n => n.1 = s) ++
          state.batch.notifications.filter (fun n => n.1 = s) := by
  intro start
  refine ⟨nodup_revocations env hpc ticks start, fun v _ s h => attempts_of_revocationOf env h v.2,
    ?_, ?_⟩
  · rintro before tick after state core s rfl hbefore hpolled hrevoke
    exact ⟨handedFrames_revoked env hpc hbefore hpolled hrevoke,
      mem_revocations env hpc hbefore hpolled hrevoke⟩
  · intro state core s hrun hs
    obtain ⟨polled, requests, notifications, hkept⟩ := kept_run env handler primaryConnection ticks
    rw [hrun] at hkept
    obtain ⟨rfl, rfl, rfl⟩ := hkept.left state rfl
    exact ⟨filter_of_scheduled hkept.tracked.requests hs,
      filter_of_scheduled hkept.tracked.notifications hs⟩

def revokeTicks : List Tick :=
  [Tick.of [notifyFive, .message (.localRevoke 5), .message (.localRevoke 5)],
    Tick.of [notifyFive]]

theorem revoked_sessions_stay_silent_five :
    let start := LooperCore.new () ⟨1⟩
    handedFrames 5 (mainLoop (Env.idle postcard) ⟨Batch.new, false⟩ revokeTicks start).2 = [] ∧
      5 ∈ revocations (Env.idle postcard) revokeTicks start ∧
      (revocations (Env.idle postcard) revokeTicks start).Nodup := by
  intro start
  obtain ⟨hnodup, -, hrevoked, -⟩ :=
    revoked_sessions_stay_silent (Env.idle postcard) postcard_control () ⟨1⟩ revokeTicks
  obtain ⟨hsilent, hattempt⟩ := hrevoked [] _ _ ⟨Batch.new, false⟩ start 5 rfl rfl rfl
    (List.mem_cons_of_mem _ List.mem_cons_self)
  exact ⟨hsilent, hattempt rfl, hnodup⟩

def fullQueue : Env Unit := { Env.idle postcard with trySend := fun _ => .error .channelFull }

/-- The looper goes on, though its one attempt was refused and no frame was sent. -/
theorem refused_revocation :
    let run := mainLoop fullQueue ⟨Batch.new, false⟩ revokeTicks (LooperCore.new () ⟨1⟩)
    run.1 = .done none ∧ revocations fullQueue revokeTicks (LooperCore.new () ⟨1⟩) = [5] ∧
      run.2.trace = [.refused 0 (controlMessage.encode (.revokeInterest 5))] :=
  ⟨rfl, rfl, rfl⟩

end Pane.Revocations
