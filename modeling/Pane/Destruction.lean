import Pane.Cascades

namespace Pane.Destruction

open Pane.HashTable Pane.Messages Pane.Correlator Pane.Callbacks Pane.Unwinding Pane.LooperState
open Pane.CallbackEffects Pane.CoreDispatch Pane.RequestLedger Pane.Cascades

variable {H : Type} (env : Env H) {core core' : LooperCore H} {firing : Option Token}
  {tokens : List Token} {t : Token}

def condemned (core : LooperCore H) (teardown : List (PeerScope × Token) × ActiveSession) :
    LooperCore H :=
  { core.note (.cascading (teardown.1.map Prod.snd)) with
    activeSession := teardown.2
    cascaded := core.cascaded ++ LooperCore.doomed core teardown.1 }

theorem swept_cascade (core : LooperCore H)
    (failure : TokenOrder → ActiveSession → List (PeerScope × Token) × ActiveSession)
    (hkeys : (failure (env.order core.trace.length) core.activeSession).1 =
      tokens.map fun t => (core.primaryConnection, t)) (hnodup : tokens.Nodup) :
    Ends (cascade env failure) core fun o core' =>
      match o with
      | .done _ => Swept tokens
          (condemned core (failure (env.order core.trace.length) core.activeSession)) core'
      | .panicked => CascadeBroke env core' := by
  have hsnd : (tokens.map fun t => (core.primaryConnection, t)).map Prod.snd = tokens := by
    simp [Function.comp_def]
  have hcascade : cascade env failure core = failTokens env tokens
      (condemned core (failure (env.order core.trace.length) core.activeSession)) := by
    conv_rhs => rw [← hsnd, ← hkeys]
    rfl
  refine Ends.congr ?_ hcascade
  apply (swept_failTokens env hnodup _).mono
  intro o core' ho
  cases o with
  | done _ => exact ho
  | panicked =>
    obtain ⟨hcascaded, hrecorded, x, hx, hnot⟩ := ho
    refine ⟨⟨x, ?_, hnot⟩, hrecorded⟩
    rw [hcascaded, condemned, hkeys]
    exact List.mem_append_right _ hx

theorem swept_pending (h : Swept tokens core core') :
    Pending core' t ↔ Pending core t ∧ t ∉ tokens := by
  rw [Pending, h.primaryConnection, mem_iff_lookup, h.entries]
  by_cases ht : t ∈ tokens
  · simp [ht]
  · simp [ht, Pending, mem_iff_lookup]

theorem swept_pendingAsync (h : Swept tokens core core') :
    PendingAsync core' t ↔ PendingAsync core t ∧ ¬ (t ∈ tokens ∧ ¬ Pending core t) := by
  rw [PendingAsync, h.primaryConnection, mem_iff_lookup, h.asyncEntries]
  by_cases ht : t ∈ tokens
  · by_cases hp : Pending core t
    · have hp' : (core.primaryConnection, t) ∈ core.dispatch.entries := hp
      simp [ht, hp, hp', PendingAsync, mem_iff_lookup]
    · have hp' : (core.primaryConnection, t) ∉ core.dispatch.entries := hp
      simp [ht, hp, hp']
  · simp [ht, PendingAsync, mem_iff_lookup]

theorem failure_counts {es : List Event} (h : ∀ e ∈ es, isFailure e) (t : Token) :
    es.countP (settles t) = es.countP (fun e => e = .called (.onFailed t)) ∧
      es.countP (installs t) = 0 ∧ es.countP (decides t) = 0 ∧ Event.discarded t ∉ es ∧
      ∀ call p, Event.panicked call p ∉ es := by
  refine ⟨?_, ?_, ?_, fun hd => by simpa [isFailure, isMinor] using h _ hd,
    fun call p hd => by simpa [isFailure, isMinor] using h _ hd⟩
  · apply List.countP_congr
    intro e he
    have hf := h e he
    revert hf
    cases e with
    | called call => cases call <;> simp [isFailure, isMinor, settles]
    | _ => simp [isFailure, isMinor, settles]
  all_goals
    rw [List.countP_eq_zero]
    intro e he
    have hf := h e he
    revert hf
    cases e <;> simp [isFailure, isMinor, installs, decides]

theorem ledger_swept (hl : Ledger core) (h : Swept tokens core core') : Ledger core' := by
  obtain ⟨es, htrace, hes, hcount⟩ := h.trace
  have hc := failure_counts hes
  refine ⟨?_, ?_, ?_, ?_, ?_, ?_⟩
  · rw [h.activeSession, h.primaryConnection]
    exact hl.peer
  · intro key hkey
    rw [h.primaryConnection]
    simp only [mem_iff_lookup, h.entries, h.asyncEntries] at hkey
    apply hl.keys key
    obtain ⟨v, hv⟩ | ⟨v, hv⟩ := hkey
    · split at hv
      · simp at hv
      · exact .inl (mem_of_lookup hv)
    · split at hv
      · simp at hv
      · exact .inr (mem_of_lookup hv)
  · intro t
    have hs := hl.settled t
    simp only [htrace, List.countP_append, (hc t).1, (hc t).2.1, hcount t, swept_pending h]
    by_cases ht : t ∈ tokens <;> by_cases hp : Pending core t <;> simp [ht, hp] at hs ⊢ <;>
      omega
  · intro t
    rw [htrace, List.countP_append, List.countP_append, (hc t).2.1, (hc t).2.2.1]
    exact hl.decided t
  · intro t
    rw [htrace, List.countP_append, (hc t).2.1, h.activeSession]
    exact hl.installed t
  · exact hl.kept_append htrace fun t => (hc t).2.2.2.1

theorem ledger_condemned {teardown : List (PeerScope × Token) × ActiveSession} (h : Ledger core)
    (hpeer : teardown.2.primaryConnection = core.activeSession.primaryConnection)
    (hnext : teardown.2.correlator.nextToken = core.activeSession.correlator.nextToken) :
    Ledger (condemned core teardown) := by
  refine ⟨hpeer.trans h.peer, h.keys, h.settled, h.decided, ?_, h.kept⟩
  intro t
  have := h.installed t
  rwa [← hnext] at this

theorem books_teardown {order : TokenOrder} {sessionId : UInt16} (h : Books none core)
    (hswept : Swept (core.activeSession.correlator.tokensForSession order sessionId)
      (condemned core (core.activeSession.cascadeSessionFailure order sessionId)) core') :
    Books none core' := by
  obtain ⟨hpeer, hnext, hsession⟩ :=
    core.activeSession.cascadeSessionFailure_spec order sessionId
  have hmem : ∀ t, t ∈ core.activeSession.correlator.tokensForSession order sessionId ↔
      sessionOf core t = some sessionId := fun t =>
    RequestCorrelator.mem_tokensForSession _ order
  refine ⟨ledger_swept (ledger_condemned h.toLedger hpeer hnext) hswept, ?_, ?_, by simp⟩
  · intro t
    have hagree := h.agree t
    have hapart := h.apart t
    have hnew : sessionOf core' t =
        if sessionOf core t = some sessionId then none else sessionOf core t := by
      rw [sessionOf, hswept.activeSession]
      exact hsession t
    rw [hnew, swept_pending hswept, swept_pendingAsync hswept, hmem]
    change _ ↔ Pending core t ∧ _ ∨ PendingAsync core t ∧ ¬ (_ ∧ ¬ Pending core t) ∨ _
    by_cases hs : sessionOf core t = some sessionId <;> by_cases hp : Pending core t <;>
      simp_all
  · intro t
    rw [swept_pending hswept, swept_pendingAsync hswept]
    rintro ⟨hp, -⟩ ⟨ha, -⟩
    exact h.apart t hp ha

theorem eq_empty_of_lookup {K V : Type} [DecidableEq K] {table : Table K V}
    (h : ∀ key, table.lookup key = none) : table = ∅ := by
  have hkeys : table.keys = [] := by
    rw [List.eq_nil_iff_forall_not_mem]
    intro key hkey
    exact AList.lookup_eq_none.mp (h key) (AList.mem_keys.mp hkey)
  apply AList.ext
  exact List.map_eq_nil_iff.mp hkeys

/-- The state after the destruction sequence. The closures of all requests that
still had them were called. -/
structure Destroyed (reason : ExitReason) (core core' : LooperCore H) : Prop where
  ledger : Ledger core'
  entries : core'.dispatch.entries = ∅
  asyncEntries : core'.dispatch.asyncEntries = ∅
  exited : core'.exited = true
  exitTx : core'.exitTx = core.exitTx ++ [reason]
  poisoned : core'.poisoned = core.poisoned
  trace : ∃ es, core'.trace = core.trace ++ es ∧
    (∀ t, Pending core t → Event.called (.onFailed t) ∈ es) ∧
    (∀ call p, Event.panicked call p ∉ es)

theorem swept_all {order : TokenOrder} {core₁ : LooperCore H} (h : Books firing core)
    (hdispatch : core₁.dispatch = core.dispatch)
    (hpeer : core₁.primaryConnection = core.primaryConnection)
    (hswept : Swept (core.activeSession.correlator.allTokens order) core₁ core') :
    core'.dispatch = ⟨∅, ∅⟩ := by
  have hmem : ∀ t, Pending core t ∨ PendingAsync core t →
      t ∈ core.activeSession.correlator.allTokens order := by
    intro t ht
    have hsome : (sessionOf core t).isSome :=
      (h.agree t).mpr (ht.elim .inl fun ha => .inr (.inl ha))
    exact (RequestCorrelator.mem_allTokens _ order).mpr (Option.isSome_iff_exists.mp hsome)
  have hentries : core'.dispatch.entries = ∅ := by
    apply eq_empty_of_lookup
    intro key
    rw [hswept.entries, hdispatch, hpeer]
    split
    · rfl
    · next hkey =>
      rw [AList.lookup_eq_none]
      intro hin
      have hp := h.keys key (.inl hin)
      have hpending : Pending core key.2 := by rwa [Pending, ← hp]
      exact hkey ⟨hp, hmem _ (.inl hpending)⟩
  have hasync : core'.dispatch.asyncEntries = ∅ := by
    apply eq_empty_of_lookup
    intro key
    rw [hswept.asyncEntries, hdispatch, hpeer]
    split
    · rfl
    · next hkey =>
      rw [AList.lookup_eq_none]
      intro hin
      have hp := h.keys key (.inr hin)
      have hpending : PendingAsync core key.2 := by rwa [PendingAsync, ← hp]
      refine hkey ⟨hp, hmem _ (.inr hpending), fun hentry => ?_⟩
      exact h.apart key.2 (by rwa [Pending, ← hp]) hpending
  rw [← hentries, ← hasync]

theorem clear_empty (h : core.dispatch = ⟨∅, ∅⟩) : clear core = (.done (), core) := by
  obtain ⟨handler, dispatch, rest⟩ := core
  obtain rfl : dispatch = ⟨∅, ∅⟩ := h
  simp [clear]

theorem destroyed_runDestruction (h : Books firing core) (reason : ExitReason) :
    Ends (runDestruction env reason) core fun o core' =>
      match o with
      | .done _ => Destroyed reason core core'
      | .panicked => CascadeBroke env core' := by
  let order := env.order core.trace.length
  have hkeys : (core.activeSession.cascadeConnectionFailure order).1 =
      (core.activeSession.correlator.allTokens order).map fun t => (core.primaryConnection, t) := by
    rw [ActiveSession.cascadeConnectionFailure, h.peer]
  have hcascade := swept_cascade env { core.note (.destroying reason) with exited := true } _ hkeys
    (RequestCorrelator.nodup_allTokens _ order)
  apply Ends.modify
  refine Ends.seq hcascade ?_ fun core' hbroke => hbroke
  intro _ core₁ hswept
  have hempty : core₁.dispatch = ⟨∅, ∅⟩ := by
    refine swept_all h ?_ ?_ hswept
    · rfl
    · rfl
  have hledger : Ledger core₁ := by
    refine ledger_swept (ledger_condemned ?_ rfl rfl) hswept
    exact ⟨h.peer, h.keys, h.settled, h.decided, h.installed, h.kept⟩
  obtain ⟨es, htrace, hes, hcount⟩ := hswept.trace
  refine Ends.bind (Ends.congr (Ends.pure ?_) (clear_empty hempty))
  refine ⟨⟨hledger.peer, hledger.keys, hledger.settled, hledger.decided, hledger.installed,
    hledger.kept⟩, congrArg Dispatch.entries hempty, congrArg Dispatch.asyncEntries hempty,
    hswept.exited, congrArg (· ++ [reason]) hswept.exitTx, hswept.poisoned, es, htrace, ?_,
    fun call p => (failure_counts hes 0).2.2.2.2 call p⟩
  intro t hp
  have hsome : (sessionOf core t).isSome := (h.agree t).mpr (.inl hp)
  have hone : es.countP (fun e => e = .called (.onFailed t)) = 1 := by
    rw [hcount t]
    apply if_pos
    exact ⟨(RequestCorrelator.mem_allTokens _ order).mpr (Option.isSome_iff_exists.mp hsome), hp⟩
  obtain ⟨e, he, heq⟩ := List.countP_pos_iff.mp (hone ▸ Nat.one_pos)
  obtain rfl : e = .called (.onFailed t) := by simpa using heq
  exact he

end Pane.Destruction
