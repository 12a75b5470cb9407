import Pane.EventFilters
import Pane.PostcardFormat
import Pane.SideChannel

namespace Pane.OutboundOrder

open Pane.HashTable Pane.Messages Pane.Callbacks Pane.Unwinding Pane.LooperState
open Pane.CoreDispatch Pane.CoreRequest Pane.Looper Pane.CoreRuns Pane.LooperPlan
open Pane.EventFilters Pane.SideChannel Pane.PostcardFormat

variable {H : Type} (env : Env H) {core : LooperCore H}

/-- A frame that code on the looper thread emits; `index` tells it from others and says
when this is. -/
structure Emission where
  index : Nat
  service : UInt16
  payload : Bytes
deriving DecidableEq

def emissionOf (notes : List (Nat × Note)) : Event × Nat → Option (Bool × Emission)
  | (.sent service payload, n) => some (decide ((n, .direct) ∈ notes), ⟨n, service, payload⟩)
  | _ => none

def emissions (core : LooperCore H) : List (Bool × Emission) :=
  core.trace.zipIdx.filterMap (emissionOf core.notes)

def wayOf : Move Emission → Option (Bool × Emission)
  | .direct e => some (true, e)
  | .queue e => some (false, e)
  | .drain _ => none

/-- What happens to the outbound frames of a run: each of them takes its way, and
now and then the `ConnectionSource` or the writer thread drains the channel. -/
def Fits (core : LooperCore H) (moves : List (Move Emission)) : Prop :=
  moves.filterMap wayOf = emissions core

theorem sent_of_fits {moves : List (Move Emission)} (h : Fits core moves) :
    sent moves = (emissions core).map Prod.snd := by
  rw [← h, List.map_filterMap]
  apply List.filterMap_congr
  intro m _
  cases m <;> rfl

theorem index_of_emissionOf {notes : List (Nat × Note)} {e : Event × Nat} {x : Bool × Emission}
    (h : emissionOf notes e = some x) : x.2.index = e.2 := by
  obtain ⟨e, n⟩ := e
  cases e with
  | sent service payload =>
    cases h
    rfl
  | _ => cases h

theorem emissions_sorted (core : LooperCore H) :
    ((emissions core).map Prod.snd).Pairwise fun a b => a.index < b.index := by
  have htrace : core.trace.zipIdx.Pairwise fun a b => a.2 < b.2 := by
    rw [← List.pairwise_map, List.zipIdx_map_snd]
    exact List.pairwise_lt_range'
  rw [List.pairwise_map]
  apply List.Pairwise.filterMap (emissionOf core.notes) ?_ htrace
  intro a a' hlt x hx y hy
  rw [index_of_emissionOf hx, index_of_emissionOf hy]
  exact hlt

section Unshared

def Unshared (ticks : List Tick) : Prop := ∀ t ∈ ticks, .message (.newConnection true) ∉ t.inputs

def isDirectAct : Act → Bool
  | .op op => isDirect op
  | _ => false

theorem indirect_map {α : Type} (f : α → Act) (hf : ∀ a, isDirectAct (f a) = false) (as : List α) :
    ∀ act ∈ as.map f, isDirectAct act = false := by
  intro act hact
  obtain ⟨a, -, rfl⟩ := List.mem_map.mp hact
  exact hf a

theorem inboundPlan_indirect (elapsed : Nat → Bool) {state : LoopState}
    (h : state.sharedWriter = false) :
    ∀ act ∈ (inboundPlan elapsed state).1, isDirectAct act = false := by
  have hrequest (r : UInt16 × Token × Bytes) :
      isDirectAct (requestAct state.sharedWriter r) = false := h
  have hnotification (n : UInt16 × Bytes) : isDirectAct (notificationAct n) = false := rfl
  rw [inboundPlan]
  dsimp only
  split
  · exact indirect_map _ hrequest _
  · split
    · exact List.forall_mem_append.mpr ⟨indirect_map _ hrequest _, indirect_map _ hnotification _⟩
    · refine List.forall_mem_append.mpr ⟨indirect_map _ hrequest _,
        List.forall_mem_append.mpr ⟨indirect_map _ hnotification _, ?_⟩⟩
      split
      · exact List.forall_mem_singleton.mpr rfl
      · exact fun _ hact => absurd hact List.not_mem_nil

theorem frameworkPlan_indirect (b : Batch) : ∀ act ∈ frameworkPlan b, isDirectAct act = false := by
  rw [frameworkPlan]
  simp only [List.forall_mem_append]
  refine ⟨?_, ?_, ?_, ?_, ?_, ?_⟩
  all_goals exact indirect_map _ (fun _ => rfl) _

theorem tickPlan_indirect (pc : Postcard) {tick : Tick} {state : LoopState}
    (htick : .message (.newConnection true) ∉ tick.inputs) (h : state.sharedWriter = false)
    (hbatch : state.batch.newConnection ≠ some true) :
    ∀ act ∈ (tickPlan pc state tick).1, isDirectAct act = false := by
  have hnone := newConnection_foldl pc tick.inputs hbatch htick
  rw [tickPlan]
  split
  · exact List.forall_mem_singleton.mpr rfl
  · dsimp only
    split
    · exact fun _ hact => absurd hact List.not_mem_nil
    · rw [batchPlan]
      simp only [List.forall_mem_append]
      refine ⟨indirect_map _ (fun _ => rfl) _, frameworkPlan_indirect _,
        indirect_map _ (fun _ => rfl) _, inboundPlan_indirect tick.elapsed ?_⟩
      simp [h, hnone]

theorem runPlan_indirect (pc : Postcard) {ticks : List Tick} (hticks : Unshared ticks)
    {state : LoopState} (h : state.sharedWriter = false)
    (hbatch : state.batch.newConnection ≠ some true) :
    ∀ act ∈ runPlan pc state ticks, isDirectAct act = false := by
  induction ticks generalizing state with
  | nil => exact fun _ hact => absurd hact List.not_mem_nil
  | cons tick ticks ih =>
    have htick := hticks tick List.mem_cons_self
    refine List.forall_mem_append.mpr ⟨tickPlan_indirect pc htick h hbatch,
      ih (fun t ht => hticks t (List.mem_cons_of_mem _ ht)) ?_ ?_⟩
    · cases ht : tick.pollFails with
      | true =>
        rw [tickPlan, if_pos ht]
        exact h
      | false =>
        rw [(tickPlan_loop pc state ht).1, h, Bool.false_or]
        exact decide_eq_false (newConnection_foldl pc tick.inputs hbatch htick)
    · cases ht : tick.pollFails with
      | true =>
        rw [tickPlan, if_pos ht]
        exact hbatch
      | false =>
        rw [(tickPlan_loop pc state ht).2]
        simp

theorem admits_indirect : Admits (fun _ => True) (· ≠ .direct) :=
  ⟨fun _ _ => trivial, fun _ _ => trivial, fun _ => trivial, fun _ h => h⟩

theorem queued_of_unshared {setupFails : Bool} {ticks : List Tick} (hticks : Unshared ticks)
    (handler : H) (primaryConnection : PeerScope) :
    ∀ x ∈ emissions (Looper.run env setupFails ticks (LooperCore.new handler primaryConnection)).2,
      x.1 = false := by
  have hacts : ∀ act ∈ (if setupFails then [.fail] else runPlan env.pc ⟨Batch.new, false⟩ ticks),
      Moves (Only (fun _ => True) (· ≠ .direct)) (Only (fun _ => True) (· ≠ .direct))
        (act.exec env) := by
    intro act hact
    apply only_act env admits_indirect act fun _ _ => trivial
    rintro op rfl hop
    have hindirect : isDirectAct (.op op) = false := by
      split at hact
      · cases List.mem_singleton.mp hact
      · exact runPlan_indirect env.pc hticks rfl (by simp [Batch.new]) _ hact
    exact absurd (hop.symm.trans hindirect) Bool.noConfusion
  have hrun := (moves_execAll env hacts).always (LooperCore.new handler primaryConnection)
  unfold Ends at hrun
  rw [← run_plan] at hrun
  obtain ⟨-, ns, hnotes, hns⟩ := hrun
  intro x hx
  obtain ⟨⟨e, n⟩, -, he⟩ := List.mem_filterMap.mp hx
  cases e with
  | sent service payload =>
    cases he
    apply decide_eq_false
    rw [hnotes]
    intro hmem
    exact hns _ (by simpa [LooperCore.new] using hmem) rfl
  | _ => cases he

end Unshared

/-- The frames of a session, or some of them, reach the stream in the order of the calls
that emit them, exactly if no frame that goes straight into the buffer finds one of
them in the channel. Without a shared writer there is no such frame. -/
theorem outbound_order_iff (setupFails : Bool) (ticks : List Tick) (handler : H)
    (primaryConnection : PeerScope) {moves : List (Move Emission)}
    (hmoves : Fits (Looper.run env setupFails ticks (LooperCore.new handler primaryConnection)).2
      moves) (s : UInt16) (calls : Emission → Bool) :
    let emitted := (emissions
      (Looper.run env setupFails ticks (LooperCore.new handler primaryConnection)).2).map Prod.snd
    let ofSession := fun e : Emission => decide (e.service = s) && calls e
    ((Pipe.empty.run moves).contents.filter ofSession = emitted.filter ofSession ↔
      Undisturbed ofSession Pipe.empty moves) ∧
    (Undisturbed ofSession Pipe.empty moves →
      (Pipe.empty.run moves).stream.filter ofSession <+: emitted.filter ofSession) ∧
    (Unshared ticks → Undisturbed ofSession Pipe.empty moves) := by
  intro emitted ofSession
  have hsent : sent moves = emitted := sent_of_fits hmoves
  have hiff : (Pipe.empty.run moves).contents.filter ofSession = emitted.filter ofSession ↔
      Undisturbed ofSession Pipe.empty moves := by
    have hsorted : (sent moves).Pairwise fun a b => a.index < b.index := by
      rw [hsent]
      exact emissions_sorted _
    rw [← hsent]
    exact contents_eq_sent_iff hsorted
  refine ⟨hiff, fun h => ?_, fun hticks => ?_⟩
  · rw [← hiff.mpr h, Pipe.contents, List.filter_append]
    exact List.prefix_append _ _
  · apply undisturbed_of_queued
    intro e he
    have hmem : (true, e) ∈ moves.filterMap wayOf := List.mem_filterMap.mpr ⟨_, he, rfl⟩
    rw [hmoves] at hmem
    exact absurd (queued_of_unshared env hticks handler primaryConnection _ hmem) Bool.noConfusion

section Samples

def talkative : Env Unit :=
  { Env.idle postcard with
    serviceDispatch := ⟨∅, AList.singleton 5 ⟨0, fun _ => some fun _ h =>
      .act h (.plain (.sendNotification ⟨5, 0⟩ (some [7]))) fun _ =>
      .act h (.sendRequest ⟨5, 0⟩ (some [8]) ⟨fun _ h => .ret h .cont, fun h => .ret h .cont⟩)
        fun _ => .ret h .cont⟩⟩ }

def asked : Tick :=
  ⟨[.message (.service 5 ((postcard.frameToAllocvec (.request 3 [0])).getD []))], false,
    fun _ => false⟩

def registered : Tick := ⟨[.message (.newConnection true)], false, fun _ => false⟩

def emitted (ticks : List Tick) : List (Bool × Emission) :=
  emissions (Looper.run talkative false ticks (LooperCore.new () ⟨1⟩)).2

def notification : Emission := ⟨3, 5, (postcard.frameToAllocvec (.notification [0, 7])).getD []⟩

def request : Emission := ⟨5, 5, (postcard.frameToAllocvec (.request 0 [0, 8])).getD []⟩

theorem outbound_order_unshared :
    let moves := [.queue notification, .queue request, .drain 2]
    emitted [asked] = [(false, notification), (false, request)] ∧
      (Pipe.empty.run moves).stream = [notification, request] ∧
      (Pipe.empty.run moves).contents.filter (fun e => decide (e.service = 5) && true) =
        ((emitted [asked]).map Prod.snd).filter fun e => decide (e.service = 5) && true := by
  intro moves
  have hemitted : emitted [asked] = [(false, notification), (false, request)] := by decide +kernel
  have hmoves : Fits (Looper.run talkative false [asked] (LooperCore.new () ⟨1⟩)).2 moves :=
    hemitted.symm
  have hticks : Unshared [asked] := by
    intro t ht
    cases List.mem_singleton.mp ht
    simp [asked]
  obtain ⟨hiff, -, hunshared⟩ :=
    outbound_order_iff talkative false [asked] () ⟨1⟩ hmoves 5 fun _ => true
  exact ⟨hemitted, rfl, hiff.mpr (hunshared hticks)⟩

/-- The same with a shared writer: the request gets ahead of the notification. -/
theorem outbound_order_shared :
    let moves := [.queue notification, .direct request, .drain 1]
    emitted [registered, asked] = [(false, notification), (true, request)] ∧
      Fits (Looper.run talkative false [registered, asked] (LooperCore.new () ⟨1⟩)).2 moves ∧
      (Pipe.empty.run moves).stream = [request, notification] := by
  have hemitted : emitted [registered, asked] = [(false, notification), (true, request)] := by
    decide +kernel
  exact ⟨hemitted, hemitted.symm, rfl⟩

end Samples

end Pane.OutboundOrder
