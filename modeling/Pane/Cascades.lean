import Pane.RequestLedger

namespace Pane.Cascades

open Pane.HashTable Pane.Messages Pane.Correlator Pane.Callbacks Pane.Unwinding Pane.LooperState
open Pane.CallbackEffects Pane.CoreDispatch Pane.RequestLedger

variable {H : Type} (env : Env H) {core core' : LooperCore H} {t : Token}

section Fire

variable {call : Call} {code : DispatchEntry H → H → Callback H} {event : Event}

theorem fire_entry {entry : DispatchEntry H}
    (h : core.dispatch.entries.lookup (core.primaryConnection, t) = some entry) :
    Ends (fire env t call code event) core fun o core' =>
      match o with
      | .done r => (∃ flow, r = some flow) ∧
          Entered call (removeEntry (core.primaryConnection, t) core) core'
      | .panicked => Broke call (removeEntry (core.primaryConnection, t) core) core' ∧
          ∃ core₁, (invoke env call (code entry) core₁).1 = .panicked := by
  have hfire : fire env t call code event core =
      (invoke env call (code entry) >>= fun flow => pure (some flow))
        (removeEntry (core.primaryConnection, t) core) := by
    simp only [fire, Code.bind_apply, Code.gets_apply, h, Code.modify_apply]
  refine Ends.congr (Ends.bind ?_) hfire
  apply (moves_invoke env call (code entry) _).result.mono
  intro o core' ho
  cases o with
  | done flow => exact ⟨⟨flow, rfl⟩, ho.1⟩
  | panicked => exact ⟨ho.1, _, congrArg Prod.fst ho.2⟩

theorem fire_async {entry : AsyncDispatchEntry}
    (h : core.dispatch.entries.lookup (core.primaryConnection, t) = none)
    (ha : core.dispatch.asyncEntries.lookup (core.primaryConnection, t) = some entry) :
    fire env t call code event core =
      if entry.futureDropped then
        (.panicked, (removeAsync (core.primaryConnection, t) core).log (.futureGone t))
      else (.done (some .cont), (removeAsync (core.primaryConnection, t) core).log event) := by
  cases hd : entry.futureDropped with
  | true => simp [fire, settle, log, Code.bind_apply, h, ha, hd]
  | false => simp [fire, settle, log, Code.bind_apply, h, ha, hd]

theorem fire_none (h : core.dispatch.entries.lookup (core.primaryConnection, t) = none)
    (ha : core.dispatch.asyncEntries.lookup (core.primaryConnection, t) = none) :
    fire env t call code event core = (.done none, core) := by
  simp [fire, Code.bind_apply, h, ha]

end Fire

/-- Running the failure closure cannot panic; for an async entry, the future
is still there. -/
def Calm : DispatchEntry H ⊕ AsyncDispatchEntry → Prop
  | .inl entry => ∀ t core, (invoke env (.onFailed t) entry.onFailed core).1 ≠ .panicked
  | .inr entry => entry.futureDropped = false

structure CascadeBroke (core : LooperCore H) : Prop where
  notCalm : ∃ x ∈ core.cascaded, ¬ Calm env x
  recorded : (∃ t p, Event.panicked (.onFailed t) p ∈ core.trace) ∨
    ∃ t, Event.futureGone t ∈ core.trace

def isFailure : Event → Bool
  | .called (.onFailed _) => true
  | .rejected _ => true
  | e => isMinor e

/-- The tokens have been failed: their entries are gone, and the closures of
the callback entries were called once. -/
structure Swept (tokens : List Token) (core core' : LooperCore H) : Prop where
  activeSession : core'.activeSession = core.activeSession
  primaryConnection : core'.primaryConnection = core.primaryConnection
  exitTx : core'.exitTx = core.exitTx
  exited : core'.exited = core.exited
  cascaded : core'.cascaded = core.cascaded
  poisoned : core'.poisoned = core.poisoned
  entries : ∀ key, core'.dispatch.entries.lookup key =
    if key.1 = core.primaryConnection ∧ key.2 ∈ tokens then none
    else core.dispatch.entries.lookup key
  asyncEntries : ∀ key, core'.dispatch.asyncEntries.lookup key =
    if key.1 = core.primaryConnection ∧ key.2 ∈ tokens ∧ key ∉ core.dispatch.entries then none
    else core.dispatch.asyncEntries.lookup key
  trace : ∃ es, core'.trace = core.trace ++ es ∧ (∀ e ∈ es, isFailure e) ∧
    ∀ t, es.countP (fun e => e = .called (.onFailed t)) =
      if t ∈ tokens ∧ Pending core t then 1 else 0

theorem Swept.refl (core : LooperCore H) : Swept [] core core :=
  ⟨rfl, rfl, rfl, rfl, rfl, rfl, by simp, by simp, [], by simp, by simp, by simp⟩

theorem isFailure_of_isMinor {e : Event} (h : isMinor e) : isFailure e := by
  cases e <;> simp_all [isMinor, isFailure]

theorem mem_doomed_entry {entry : DispatchEntry H} {key : PeerScope × Token}
    (h : core.dispatch.entries.lookup key = some entry) :
    .inl entry ∈ LooperCore.doomed core [key] := by
  simp [LooperCore.doomed, h]

theorem mem_doomed_async {entry : AsyncDispatchEntry} {key : PeerScope × Token}
    (h : core.dispatch.entries.lookup key = none)
    (ha : core.dispatch.asyncEntries.lookup key = some entry) :
    .inr entry ∈ LooperCore.doomed core [key] := by
  simp [LooperCore.doomed, h, ha]

theorem minor_countP {es : List Event} (h : ∀ e ∈ es, isMinor e) (call : Call) :
    es.countP (fun e => e = .called call) = 0 := by
  rw [List.countP_eq_zero]
  intro e he heq
  have := h e he
  simp_all [isMinor]

theorem swept_of_entered (hmem : Pending core t)
    (h : Entered (.onFailed t) (removeEntry (core.primaryConnection, t) core) core') :
    Swept [t] core core' := by
  obtain ⟨hstays, hpoisoned, es, htrace, hminor⟩ := h
  refine ⟨hstays.activeSession, hstays.primaryConnection, hstays.exitTx, hstays.exited,
    hstays.cascaded, hpoisoned, ?_, ?_, .called (.onFailed t) :: es,
    by rw [htrace, LooperCore.log, List.append_assoc]; rfl, ?_, ?_⟩
  · intro key
    rw [hstays.dispatch, LooperCore.log, removeEntry, lookup_erase]
    simp [Prod.ext_iff]
  · intro key
    have hkey : ¬ (key.1 = core.primaryConnection ∧ key.2 ∈ [t] ∧ key ∉ core.dispatch.entries) := by
      rintro ⟨hp, ht, hnot⟩
      have heq : key = (core.primaryConnection, t) := Prod.ext hp (by simpa using ht)
      exact hnot (heq ▸ hmem)
    rw [hstays.dispatch, if_neg hkey]
    rfl
  · intro e he
    obtain rfl | he := List.mem_cons.mp he
    · rfl
    · exact isFailure_of_isMinor (hminor e he)
  · intro u
    rw [List.countP_cons, minor_countP hminor]
    by_cases hu : u = t
    · simp [hu, hmem]
    · simp [hu, Ne.symm hu]

theorem swept_removeAsync (hmem : ¬ Pending core t) :
    Swept [t] core ((removeAsync (core.primaryConnection, t) core).log (.rejected t)) := by
  refine ⟨rfl, rfl, rfl, rfl, rfl, rfl, ?_, ?_, [.rejected t], rfl, by simp [isFailure], ?_⟩
  · intro key
    by_cases hkey : key = (core.primaryConnection, t)
    · subst hkey
      simpa [LooperCore.log, removeAsync] using AList.lookup_eq_none.mpr hmem
    · have : ¬ (key.1 = core.primaryConnection ∧ key.2 ∈ [t]) := by
        simpa [Prod.ext_iff] using hkey
      rw [if_neg this]
      rfl
  · intro key
    simp only [LooperCore.log, removeAsync, lookup_erase]
    by_cases hkey : key = (core.primaryConnection, t)
    · subst hkey
      rw [if_pos rfl, if_pos ⟨rfl, List.mem_singleton_self _, hmem⟩]
    · have : ¬ (key.1 = core.primaryConnection ∧ key.2 ∈ [t] ∧ key ∉ core.dispatch.entries) :=
        fun h => hkey (Prod.ext h.1 (by simpa using h.2.1))
      rw [if_neg hkey, if_neg this]
  · intro u
    have : ¬ (u ∈ [t] ∧ Pending core u) := by
      rintro ⟨hu, hp⟩
      exact hmem (List.mem_singleton.mp hu ▸ hp)
    rw [if_neg this]
    rfl

theorem swept_none (h : ¬ Pending core t) (ha : ¬ PendingAsync core t) : Swept [t] core core := by
  refine ⟨rfl, rfl, rfl, rfl, rfl, rfl, ?_, ?_, [], by simp, by simp, ?_⟩
  · intro key
    split
    · next hkey =>
      rw [show key = (core.primaryConnection, t) from Prod.ext hkey.1 (by simpa using hkey.2)]
      exact AList.lookup_eq_none.mpr h
    · rfl
  · intro key
    split
    · next hkey =>
      rw [show key = (core.primaryConnection, t) from Prod.ext hkey.1 (by simpa using hkey.2.1)]
      exact AList.lookup_eq_none.mpr ha
    · rfl
  · intro u
    have : ¬ (u ∈ [t] ∧ Pending core u) := by
      rintro ⟨hu, hp⟩
      exact h (List.mem_singleton.mp hu ▸ hp)
    rw [if_neg this]
    rfl

theorem swept_failToken (t : Token) (core : LooperCore H) :
    Ends (failToken env t) core fun o core' =>
      match o with
      | .done _ => Swept [t] core core'
      | .panicked => core'.cascaded = core.cascaded ∧
        ((∃ p, Event.panicked (.onFailed t) p ∈ core'.trace) ∨ Event.futureGone t ∈ core'.trace) ∧
          ∃ x ∈ LooperCore.doomed core [(core.primaryConnection, t)], ¬ Calm env x := by
  cases he : core.dispatch.entries.lookup (core.primaryConnection, t) with
  | some entry =>
    refine Ends.seq (fire_entry env he) ?_ ?_
    · intro r core' ho
      exact Ends.pure (swept_of_entered (mem_of_lookup he) ho.2)
    · rintro core' ⟨⟨core₁, hquiet, rfl⟩, core₂, hpanic⟩
      have hnot : ¬ Calm env (.inl entry) := fun hcalm => hcalm t core₂ hpanic
      exact ⟨hquiet.stays.cascaded, .inl ⟨core₁.outstanding, by simp [LooperCore.log]⟩,
        .inl entry, mem_doomed_entry he, hnot⟩
  | none =>
    have hp : ¬ Pending core t := AList.lookup_eq_none.mp he
    cases ha : core.dispatch.asyncEntries.lookup (core.primaryConnection, t) with
    | none =>
      have hfail : failToken env t core = (.done (), core) := by
        rw [failToken, Code.bind_apply, fireFailed, fire_none env he ha]
        rfl
      unfold Ends
      rw [hfail]
      exact swept_none hp (AList.lookup_eq_none.mp ha)
    | some entry =>
      unfold Ends
      rw [failToken, Code.bind_apply, fireFailed, fire_async env he ha]
      by_cases hd : entry.futureDropped
      · rw [if_pos hd]
        refine ⟨rfl, .inr (by simp [LooperCore.log]), .inr entry, mem_doomed_async he ha, ?_⟩
        simp [Calm, hd]
      · rw [if_neg hd]
        exact swept_removeAsync hp

theorem Swept.lookup_of_ne {u : Token} (h : Swept [t] core core') (hu : u ≠ t) :
    core'.dispatch.entries.lookup (core.primaryConnection, u) =
        core.dispatch.entries.lookup (core.primaryConnection, u) ∧
      core'.dispatch.asyncEntries.lookup (core.primaryConnection, u) =
        core.dispatch.asyncEntries.lookup (core.primaryConnection, u) := by
  rw [h.entries, h.asyncEntries]
  simp [hu]

theorem Swept.pending_iff {u : Token} (h : Swept [t] core core') (hu : u ≠ t) :
    Pending core' u ↔ Pending core u := by
  rw [Pending, Pending, h.primaryConnection, mem_iff_lookup, mem_iff_lookup, (h.lookup_of_ne hu).1]

theorem Swept.cons {tokens : List Token} {core'' : LooperCore H} (ht : t ∉ tokens)
    (h : Swept [t] core core') (h' : Swept tokens core' core'') :
    Swept (t :: tokens) core core'' := by
  have hp := h.primaryConnection
  obtain ⟨es, htrace, hes, hcount⟩ := h.trace
  obtain ⟨es', htrace', hes', hcount'⟩ := h'.trace
  refine ⟨h'.activeSession.trans h.activeSession, h'.primaryConnection.trans hp,
    h'.exitTx.trans h.exitTx, h'.exited.trans h.exited, h'.cascaded.trans h.cascaded,
    h'.poisoned.trans h.poisoned, ?_, ?_, es ++ es', by simp [htrace, htrace'], ?_, ?_⟩
  · intro key
    rw [h'.entries, h.entries, hp]
    by_cases hkey : key.1 = core.primaryConnection <;> by_cases hmem : key.2 ∈ tokens <;>
      by_cases hkt : key.2 = t <;> simp [hkey, hmem, hkt]
  · intro key
    by_cases hkey : key.1 = core.primaryConnection
    · obtain ⟨p, u⟩ := key
      obtain rfl : p = core.primaryConnection := hkey
      rw [h'.asyncEntries, h.asyncEntries, hp]
      by_cases hut : u = t
      · subst hut
        simp [ht]
      · have hmem : (core.primaryConnection, u) ∈ core'.dispatch.entries ↔
            (core.primaryConnection, u) ∈ core.dispatch.entries := by
          have := h.pending_iff hut
          rwa [Pending, Pending, hp] at this
        simp [hut, hmem]
    · rw [h'.asyncEntries, h.asyncEntries, hp]
      simp [hkey]
  · intro e he
    obtain he | he := List.mem_append.mp he
    · exact hes e he
    · exact hes' e he
  · intro u
    rw [List.countP_append, hcount, hcount']
    by_cases hut : u = t
    · subst hut
      simp [ht]
    · simp [hut, h.pending_iff hut]

theorem doomed_congr {tokens : List Token} (ht : t ∉ tokens) (h : Swept [t] core core') :
    LooperCore.doomed core' (tokens.map fun u => (core.primaryConnection, u)) =
      LooperCore.doomed core (tokens.map fun u => (core.primaryConnection, u)) := by
  unfold LooperCore.doomed
  apply List.filterMap_congr
  intro key hkey
  obtain ⟨u, hu, rfl⟩ := List.mem_map.mp hkey
  have hne : u ≠ t := fun heq => ht (heq ▸ hu)
  rw [(h.lookup_of_ne hne).1, (h.lookup_of_ne hne).2]

theorem swept_failTokens {tokens : List Token} (hnodup : tokens.Nodup) (core : LooperCore H) :
    Ends (failTokens env tokens) core fun o core' =>
      match o with
      | .done _ => Swept tokens core core'
      | .panicked => core'.cascaded = core.cascaded ∧
        ((∃ t p, Event.panicked (.onFailed t) p ∈ core'.trace) ∨
          ∃ t, Event.futureGone t ∈ core'.trace) ∧
        ∃ x ∈ LooperCore.doomed core (tokens.map fun t => (core.primaryConnection, t)),
          ¬ Calm env x := by
  induction tokens generalizing core with
  | nil => exact Swept.refl core
  | cons t tokens ih =>
    obtain ⟨ht, hnodup⟩ := List.nodup_cons.mp hnodup
    refine Ends.seq (swept_failToken env t core) ?_ ?_
    · intro _ core₁ hswept
      apply (ih hnodup core₁).mono
      intro o core' ho
      cases o with
      | done _ => exact Swept.cons ht hswept ho
      | panicked =>
        obtain ⟨hcascaded, hrecorded, x, hx, hnot⟩ := ho
        refine ⟨hcascaded.trans hswept.cascaded, hrecorded, x, ?_, hnot⟩
        rw [hswept.primaryConnection, doomed_congr ht hswept] at hx
        rw [List.map_cons, ← List.singleton_append, LooperCore.doomed, List.filterMap_append]
        exact List.mem_append_right _ hx
    · rintro core₁ ⟨hcascaded, hrecorded, x, hx, hnot⟩
      refine ⟨hcascaded, ?_, x, ?_, hnot⟩
      · obtain ⟨p, hp⟩ | hgone := hrecorded
        · exact .inl ⟨t, p, hp⟩
        · exact .inr ⟨t, hgone⟩
      · rw [List.map_cons, ← List.singleton_append, LooperCore.doomed, List.filterMap_append]
        exact List.mem_append_left _ hx

end Pane.Cascades
