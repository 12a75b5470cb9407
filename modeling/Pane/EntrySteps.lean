import Pane.CoreMoves
import Pane.CoreSteps
import Pane.LooperPlan
import Pane.RequestCap

namespace Pane.EntrySteps

open Pane.HashTable Pane.Messages Pane.Correlator Pane.Callbacks Pane.Unwinding Pane.LooperState
open Pane.CallbackEffects Pane.CoreDispatch Pane.CoreRequest Pane.Looper Pane.CoreRuns
open Pane.CoreMoves Pane.LooperPlan Pane.RequestLedger Pane.Cascades Pane.RequestSafety
open Pane.LiveCore Pane.LooperSafety
open Pane.RequestCap (capped live_capped)
open Pane.CoreSteps (Fewer nextToken fewer_recordResolution fewer_cascadeSessionFailure
  fewer_cascadeConnectionFailure)

variable {H : Type} {core core' : LooperCore H} {t : Token}

instance (core : LooperCore H) (t : Token) : Decidable (PendingAsync core t) :=
  inferInstanceAs (Decidable (_ ∈ core.dispatch.asyncEntries))

def spent : Event → Option Token
  | .called (.onReply token _) => some token
  | .called (.onFailed token) => some token
  | .cancelled token => some token
  | .resolved token => some token
  | .rejected token => some token
  | .futureGone token => some token
  | .discarded token => some token
  | _ => none

def made : Event → Option Token
  | .installed token _ => some token
  | .installedAsync token _ => some token
  | _ => none

def IsCalm (e : Event) : Prop := spent e = none ∧ made e = none

/-- What a core can do to its entries, one step at a time. -/
inductive EntryStep (core core' : LooperCore H) : Prop
  | calm (es : List Event) (hes : ∀ e ∈ es, IsCalm e) (htrace : core'.trace = core.trace ++ es)
    (hdispatch : core'.dispatch = core.dispatch)
    (hpeer : core'.primaryConnection = core.primaryConnection)
    (hfewer : Fewer core.activeSession core'.activeSession)
  | install (sessionId : UInt16) (entry : DispatchEntry H)
    (hcore : core' = inserted sessionId entry core)
  | installAsync (sessionId : UInt16) (futureDropped : Bool)
    (hcore : core' = insertedAsync sessionId futureDropped core)
  | spend (t : Token) (e : Event) (hpending : Pending core t) (he : spent e = some t)
    (hcore : core' = (removeEntry (core.primaryConnection, t) core).log e)
  | spendAsync (t : Token) (e : Event) (hpending : PendingAsync core t) (he : spent e = some t)
    (hcore : core' = (removeAsync (core.primaryConnection, t) core).log e)
  | clear (hcore : core' = (clear core).2)

abbrev Course : LooperCore H → LooperCore H → Prop := Relation.ReflTransGen EntryStep

/-- Code that moves in such steps, whether it returns or panics. -/
abbrev Paces {α : Type} (m : Loop H α) : Prop := Moves Course Course m

section Code

theorem Course.silent (hdispatch : core'.dispatch = core.dispatch)
    (hpeer : core'.primaryConnection = core.primaryConnection) (htrace : core'.trace = core.trace)
    (hfewer : Fewer core.activeSession core'.activeSession) : Course core core' :=
  .single (.calm [] (by simp) (by simpa using htrace) hdispatch hpeer hfewer)

theorem Course.note {e : Event} (he : IsCalm e) (hdispatch : core'.dispatch = core.dispatch)
    (hpeer : core'.primaryConnection = core.primaryConnection)
    (htrace : core'.trace = core.trace ++ [e])
    (hsession : core'.activeSession = core.activeSession) : Course core core' :=
  .single (.calm [e] (by simpa using he) htrace hdispatch hpeer (hsession ▸ .refl _))

theorem paces_silent {f : LooperCore H → LooperCore H}
    (hdispatch : ∀ core, (f core).dispatch = core.dispatch)
    (hpeer : ∀ core, (f core).primaryConnection = core.primaryConnection)
    (htrace : ∀ core, (f core).trace = core.trace)
    (hsession : ∀ core, (f core).activeSession = core.activeSession) : Paces (Code.modify f) :=
  Moves.modify fun core =>
    .silent (hdispatch core) (hpeer core) (htrace core) (hsession core ▸ .refl _)

theorem paces_log {e : Event} (he : IsCalm e) : Paces (log e : Loop H Unit) :=
  Moves.modify fun _ => .note he rfl rfl rfl rfl

theorem isCalm_of_isMinor {e : Event} (h : isMinor e) : IsCalm e := by
  cases e with
  | sent service payload => exact ⟨rfl, rfl⟩
  | refused service payload => exact ⟨rfl, rfl⟩
  | portAnswered port value => exact ⟨rfl, rfl⟩
  | replyLost sessionId token => exact ⟨rfl, rfl⟩
  | unclaimable call sessionId => exact ⟨rfl, rfl⟩
  | _ => cases h

theorem steps_of_stays {es : List Event} (hstays : Stays core core')
    (htrace : core'.trace = core.trace ++ es) (hminor : ∀ e ∈ es, isMinor e) :
    Course core core' :=
  .single (.calm es (fun e he => isCalm_of_isMinor (hminor e he)) htrace hstays.dispatch
    hstays.primaryConnection (hstays.activeSession ▸ .refl _))

theorem steps_of_still (h : Still core core') : Course core core' := by
  obtain ⟨hstays, -, es, htrace, hminor⟩ := h
  exact steps_of_stays hstays htrace hminor

theorem steps_of_quiet {call : Call} (h : Quiet call core core') : Course core core' := by
  obtain ⟨hstays, es, htrace, hminor, -⟩ := h
  exact steps_of_stays hstays htrace hminor

variable {env : Env H}

theorem steps_of_broke {call : Call} {core₀ : LooperCore H}
    (hcalled : Course core₀ (core.log (.called call))) (h : Broke call core core') :
    Course core₀ core' := by
  obtain ⟨core₁, hquiet, rfl⟩ := h
  have hpanicked : Course core₁ (core₁.log (.panicked call core₁.outstanding)) :=
    .note ⟨rfl, rfl⟩ rfl rfl rfl rfl
  exact (hcalled.trans (steps_of_quiet hquiet)).trans hpanicked

theorem paces_perform (call : Call) (effect : Effect) : Paces (perform env call effect) :=
  (still_perform env effect).mono (fun _ _ h => steps_of_still h) fun _ _ h => steps_of_quiet h

theorem paces_enter {E : Type} {perform : E → Loop H (Except Backpressure Unit)}
    (hperform : ∀ effect, Paces (perform effect)) {call : Call} (hcall : IsCalm (.called call))
    (code : H → Script E H) : Paces (enter perform call code) := by
  refine moves_enter (fun _ => .note hcall rfl rfl rfl rfl)
    (fun _ _ => .silent rfl rfl rfl (.refl _)) hperform (fun _ _ => .silent rfl rfl rfl (.refl _))
    (fun _ => ?_) code
  exact Course.note (e := .panicked call _) ⟨rfl, rfl⟩ rfl rfl rfl rfl

theorem paces_invoke {call : Call} (hcall : IsCalm (.called call)) (code : H → Callback H) :
    Paces (invoke env call code) :=
  paces_enter (paces_perform call) hcall code

theorem paces_fire (token : Token) (call : Call) (hcall : spent (.called call) = some token)
    (code : DispatchEntry H → H → Callback H) {event : Event} (hevent : spent event = some token) :
    Paces (fire env token call code event) := by
  intro core
  cases he : core.dispatch.entries.lookup (core.primaryConnection, token) with
  | some entry =>
    have hcalled : Course core
        ((removeEntry (core.primaryConnection, token) core).log (.called call)) :=
      .single (.spend token _ (mem_of_lookup he) hcall rfl)
    apply (fire_entry env he).mono
    intro o core' ho
    cases o with
    | done r => exact hcalled.trans (steps_of_still ho.2)
    | panicked => exact steps_of_broke hcalled ho.1
  | none =>
    cases ha : core.dispatch.asyncEntries.lookup (core.primaryConnection, token) with
    | none =>
      unfold Ends
      rw [fire_none env he ha]
    | some entry =>
      have hasync : PendingAsync core token := mem_of_lookup ha
      unfold Ends
      rw [fire_async env he ha]
      split
      · exact .single (.spendAsync token _ hasync rfl rfl)
      · exact .single (.spendAsync token _ hasync hevent rfl)

theorem paces_fireFailed (token : Token) : Paces (fireFailed env token) :=
  paces_fire token (.onFailed token) rfl _ rfl

theorem paces_cascade
    {failure : TokenOrder → ActiveSession → List (PeerScope × Token) × ActiveSession}
    (hfailure : ∀ order a, Fewer a (failure order a).2) : Paces (cascade env failure) := by
  have htokens : ∀ tokens, Paces (failTokens env tokens) :=
    Moves.forEach fun token => Moves.bind (paces_fireFailed token) fun _ => Moves.pure _
  apply Moves.of_always
  intro core
  exact (htokens _).after (Course.silent rfl rfl rfl (hfailure _ core.activeSession))

theorem paces_runDestruction (reason : ExitReason) : Paces (runDestruction env reason) := by
  refine Moves.bind (paces_silent (fun _ => rfl) (fun _ => rfl) (fun _ => rfl) fun _ => rfl)
    fun _ => ?_
  refine Moves.bind (paces_cascade fewer_cascadeConnectionFailure) fun _ => ?_
  refine Moves.bind (Moves.modify fun core => .single (.clear rfl)) fun _ => ?_
  exact paces_silent (fun _ => rfl) (fun _ => rfl) (fun _ => rfl) fun _ => rfl

theorem paces_recordResolution (token : Token) : Paces (recordResolution token : Loop H Unit) :=
  Moves.modify fun core => .silent rfl rfl rfl (fewer_recordResolution token core.activeSession)

theorem paces_resolution (token : Token) (call : Call) (hcall : spent (.called call) = some token)
    (code : DispatchEntry H → H → Callback H) {event : Event} (hevent : spent event = some token) :
    Paces (dispatchResolution env token (fire env token call code event)) :=
  moves_dispatchResolution paces_runDestruction (paces_fire token call hcall code hevent)
    (paces_recordResolution token)

theorem paces_dispatch {call : Call} (hcall : IsCalm (.called call)) (callback : H → Callback H) :
    Paces (dispatch env call callback) :=
  moves_dispatch paces_runDestruction (paces_invoke hcall callback)

theorem paces_cancel (token : Token) : Paces (cancel token : Loop H Bool) := by
  intro core
  by_cases hp : (core.primaryConnection, token) ∈ core.dispatch.entries
  · have hcancel : cancel token core = (.done true,
        (removeEntry (core.primaryConnection, token) core).log (.cancelled token)) := by
      simp [cancel, Code.bind_apply, hp]
    unfold Ends
    rw [hcancel]
    exact .single (.spend token _ hp rfl rfl)
  · cases ha : core.dispatch.asyncEntries.lookup (core.primaryConnection, token) with
    | none =>
      have hcancel : cancel token core = (.done false, core) := by
        simp [cancel, Code.bind_apply, hp, ha]
      unfold Ends
      rw [hcancel]
    | some entry =>
      have hasync : PendingAsync core token := mem_of_lookup ha
      have hcancel : cancel token core =
          (do settle token entry (.rejected token); return true : Loop H Bool)
            (removeAsync (core.primaryConnection, token) core) := by
        simp [cancel, Code.bind_apply, hp, ha]
      refine Ends.congr (Ends.bind ?_) hcancel
      unfold settle
      cases entry.futureDropped with
      | true => exact Relation.ReflTransGen.single (.spendAsync token _ hasync rfl rfl)
      | false => exact Relation.ReflTransGen.single (.spendAsync token _ hasync rfl rfl)

theorem paces_insert (sessionId : UInt16) (entry : DispatchEntry H) :
    Paces (insert sessionId entry) := fun _ => .single (.install sessionId entry rfl)

theorem paces_insertAsync (sessionId : UInt16) (futureDropped : Bool) :
    Paces (insertAsync sessionId futureDropped : Loop H Token) :=
  fun _ => .single (.installAsync sessionId futureDropped rfl)

theorem paces_trySend (service : UInt16) (payload : Bytes) :
    Paces (trySend env service payload) :=
  moves_trySend (paces_log ⟨rfl, rfl⟩) (paces_log ⟨rfl, rfl⟩)

theorem paces_sendControl (msg : ControlMessage) : Paces (sendControl env msg) :=
  moves_sendControl (paces_trySend 0)

theorem paces_sendRequestFrame (direct : Bool) (sessionId : UInt16) (token : Token)
    (payload : Bytes) : Paces (sendRequestFrame env direct sessionId token payload) :=
  moves_sendRequestFrame (fun _ _ => Course.silent rfl rfl rfl (.refl _))
    (fun _ => paces_log ⟨rfl, rfl⟩) (paces_trySend sessionId) (paces_log ⟨rfl, rfl⟩)

theorem paces_installAndSend (direct : Bool) (handle : ServiceHandle) (msg : Option Bytes)
    (entry : DispatchEntry H) : Paces (installAndSend env direct handle msg entry) :=
  moves_installAndSend (paces_insert _ _) (paces_sendRequestFrame direct handle.sessionId)
    paces_cancel paces_recordResolution

theorem paces_performCtx (direct : Bool) (call : Call) (effect : CtxEffect H) :
    Paces (performCtx env direct call effect) :=
  moves_performCtx (paces_perform call) paces_insertAsync (paces_installAndSend direct) effect

theorem paces_sendSyncRequest (req : SyncRequest) (token : Token) : Paces (do
    match ← sendRequestFrame env false req.sessionId token req.wirePayload with
    | .ok () => pure ()
    | .error _ =>
      let _ ← cancel token
      recordResolution token) := by
  refine Moves.bind (paces_sendRequestFrame _ _ _ _) fun answer => ?_
  cases answer with
  | ok _ => exact Moves.pure _
  | error _ => exact Moves.bind (paces_cancel token) fun _ => paces_recordResolution token

theorem paces_processSyncRequest (req : SyncRequest) : Paces (processSyncRequest env req) :=
  Moves.bind (paces_insert _ _) (paces_sendSyncRequest req)

theorem paces_serveRequest (direct : Bool) (sessionId : UInt16) (token : Token) (inner : Bytes) :
    Paces (serveRequest env direct sessionId token inner) := by
  unfold serveRequest
  split
  · refine Moves.bind ?_ fun _ => Moves.pure _
    unfold sendFailed
    split
    · exact Moves.bind (paces_trySend _ _) fun _ => Moves.pure _
    · exact Moves.pure _
  · refine Moves.bind ?_ fun port => paces_enter (paces_performCtx _ _) ⟨rfl, rfl⟩ _
    refine Moves.bind (Moves.gets _) fun port => Moves.bind (Moves.modify fun _ => ?_) fun _ =>
      Moves.pure _
    exact Course.note (e := .portOpened _ _ _ _) ⟨rfl, rfl⟩ rfl rfl rfl rfl

theorem paces_dispatchFrame (direct : Bool) (sessionId : UInt16) (frame : ServiceFrame) :
    Paces (dispatchFrame env direct sessionId frame) := by
  cases frame with
  | notification inner =>
    exact moves_dispatchNotification paces_runDestruction (paces_log ⟨rfl, rfl⟩)
      (paces_invoke ⟨rfl, rfl⟩)
  | request token inner =>
    exact moves_dispatchRequestWithContext paces_runDestruction (paces_log ⟨rfl, rfl⟩)
      (paces_serveRequest _ _ _ _)
  | reply token bytes => exact paces_resolution token (.onReply token bytes) rfl _ rfl
  | failed token => exact paces_resolution token (.onFailed token) rfl _ rfl

theorem paces_handle (msg : LooperMessage) : Paces (handle env msg) := by
  cases msg with
  | newConnection registers => exact Moves.pure _
  | localRevoke sessionId => exact Moves.bind (paces_sendControl _) fun _ => Moves.pure _
  | service sessionId payload =>
    exact moves_service fun frame _ => paces_dispatchFrame false sessionId frame
  | control msg =>
    cases msg with
    | lifecycle msg => exact paces_dispatch ⟨rfl, rfl⟩ _
    | paneExited address reason => exact paces_dispatch ⟨rfl, rfl⟩ _
    | serviceTeardown sessionId reason =>
      exact Moves.bind (paces_cascade fun order => fewer_cascadeSessionFailure order sessionId)
        fun _ => Moves.pure _
    | _ => exact Moves.pure _

theorem paces_exec (op : Op) : Paces (op.exec env) := by
  cases op with
  | handle msg => exact paces_handle msg
  | syncRequest req => exact Moves.bind (paces_processSyncRequest req) fun _ => Moves.pure _
  | service direct sessionId frame => exact paces_dispatchFrame direct sessionId frame
  | tearDown sessionId reason =>
    refine Moves.bind (paces_cascade fun order => ?_) fun _ => paces_dispatch ⟨rfl, rfl⟩ _
    exact fewer_cascadeSessionFailure order sessionId
  | connectSubscriber sessionId =>
    refine moves_connectSubscriber paces_runDestruction ?_ (paces_invoke ⟨rfl, rfl⟩)
    exact fun f => moves_lockEnqueues f fun _ => Course.silent rfl rfl rfl (.refl _)
  | write payload =>
    refine Moves.bind (Moves.bind ?_ fun _ => Moves.pure _) fun _ => Moves.pure _
    exact paces_trySend 0 payload

theorem paces_act (act : Act) : Paces (act.exec env) := by
  cases act with
  | op op =>
    refine Moves.bind (paces_exec op) fun outcome => ?_
    cases outcome with
    | cont => exact Moves.pure _
    | exit reason => exact Moves.pure _
  | close =>
    refine Moves.bind (moves_channelClosed paces_runDestruction (paces_invoke ⟨rfl, rfl⟩ _) ?_)
      fun _ => Moves.pure _
    exact fun _ => Course.silent rfl rfl rfl (.refl _)
  | fail => exact Moves.bind (moves_infraError paces_runDestruction) fun _ => Moves.pure _

theorem paces_execAll (env : Env H) (acts : List Act) : Paces (execAll env acts) :=
  moves_execAll env fun act _ => paces_act act

end Code

theorem peer_step (h : EntryStep core core') :
    core'.primaryConnection = core.primaryConnection := by
  cases h with
  | calm es hes htrace hdispatch hpeer hfewer => exact hpeer
  | install sessionId entry hcore => exact hcore ▸ rfl
  | installAsync sessionId futureDropped hcore => exact hcore ▸ rfl
  | spend t e hpending he hcore => exact hcore ▸ rfl
  | spendAsync t e hpending he hcore => exact hcore ▸ rfl
  | clear hcore => exact hcore ▸ rfl

theorem peer_course (h : Course core core') :
    core'.primaryConnection = core.primaryConnection := by
  induction h with
  | refl => rfl
  | tail _ hstep ih => exact (peer_step hstep).trans ih

section Accounts

def spends (t : Token) (e : Event) : Bool := spent e = some t

def makes (t : Token) (e : Event) : Bool := made e = some t

def owed (core : LooperCore H) (t : Token) : Nat :=
  (if Pending core t then 1 else 0) + if PendingAsync core t then 1 else 0

/-- Every request gets one entry, which is there until an event uses it up. The
next token is a new one. -/
structure Tidy (core : LooperCore H) : Prop where
  keys : ∀ key, key ∈ core.dispatch.entries ∨ key ∈ core.dispatch.asyncEntries →
    key.1 = core.primaryConnection
  balance : ∀ t, core.trace.countP (spends t) + owed core t = core.trace.countP (makes t)
  once : ∀ t, core.trace.countP (makes t) ≤ if t < nextToken core then 1 else 0

theorem tidy_capped (handler : H) (primaryConnection : PeerScope) (k : UInt16) :
    Tidy (capped handler primaryConnection k) := by
  refine ⟨?_, fun t => ?_, fun t => ?_⟩
  · rintro key (hkey | hkey)
    · exact absurd hkey (AList.notMem_empty key)
    · exact absurd hkey (AList.notMem_empty key)
  · rfl
  · exact Nat.zero_le _

theorem not_pending_of_owed (h : owed core t = 0) : ¬ Pending core t ∧ ¬ PendingAsync core t := by
  rw [owed, Nat.add_eq_zero_iff] at h
  refine ⟨fun hp => ?_, fun ha => ?_⟩
  · rw [if_pos hp] at h
    exact absurd h.1 Nat.one_ne_zero
  · rw [if_pos ha] at h
    exact absurd h.2 Nat.one_ne_zero

theorem Tidy.free_nextToken (h : Tidy core) :
    ¬ Pending core (nextToken core) ∧ ¬ PendingAsync core (nextToken core) := by
  have hbalance := h.balance (nextToken core)
  have honce := h.once (nextToken core)
  rw [if_neg (Nat.lt_irrefl _)] at honce
  exact not_pending_of_owed (by omega)

theorem Tidy.unused_nextToken (h : Tidy core) :
    ∀ e ∈ core.trace, made e ≠ some (nextToken core) := by
  have honce := h.once (nextToken core)
  rw [if_neg (Nat.lt_irrefl _), Nat.le_zero, List.countP_eq_zero] at honce
  intro e he hmade
  exact honce e he (by simpa [makes] using hmade)

theorem Tidy.gone (h : Tidy core) {e : Event} (he : e ∈ core.trace) (hspent : spent e = some t) :
    core.trace.countP (spends t) = 1 ∧ ¬ Pending core t ∧ ¬ PendingAsync core t ∧
      t < nextToken core := by
  have hpos : 0 < core.trace.countP (spends t) :=
    List.countP_pos_iff.mpr ⟨e, he, by simpa [spends] using hspent⟩
  have hbalance := h.balance t
  have honce := h.once t
  by_cases hlt : t < nextToken core
  · rw [if_pos hlt] at honce
    obtain ⟨hpending, hasync⟩ : ¬ Pending core t ∧ ¬ PendingAsync core t :=
      not_pending_of_owed (by omega)
    exact ⟨by omega, hpending, hasync, hlt⟩
  · rw [if_neg hlt] at honce
    omega

theorem owed_congr (hdispatch : core'.dispatch = core.dispatch)
    (hpeer : core'.primaryConnection = core.primaryConnection) (t : Token) :
    owed core' t = owed core t := by
  have hpending : Pending core' t ↔ Pending core t := pending_congr (by rw [hdispatch]) hpeer
  have hasync : PendingAsync core' t ↔ PendingAsync core t :=
    pendingAsync_congr (by rw [hdispatch]) hpeer
  simp only [owed, hpending, hasync]

theorem countP_calm {es : List Event} (h : ∀ e ∈ es, IsCalm e) (t : Token) :
    es.countP (spends t) = 0 ∧ es.countP (makes t) = 0 := by
  refine ⟨List.countP_eq_zero.mpr fun e he => ?_, List.countP_eq_zero.mpr fun e he => ?_⟩
  · simp [spends, (h e he).1]
  · simp [makes, (h e he).2]

theorem made_of_spent {e : Event} (h : spent e = some t) : made e = none := by
  cases e with
  | installed token sessionId => cases h
  | installedAsync token sessionId => cases h
  | _ => rfl

structure Accounts (core core' : LooperCore H) (es : List Event) : Prop where
  trace : core'.trace = core.trace ++ es
  next : nextToken core ≤ nextToken core'
  keys : ∀ key, key ∈ core'.dispatch.entries ∨ key ∈ core'.dispatch.asyncEntries →
    key.1 = core'.primaryConnection
  balance : ∀ t, es.countP (spends t) + owed core' t = owed core t + es.countP (makes t)
  once : ∀ t, es.countP (makes t) ≤ if t = nextToken core ∧ t < nextToken core' then 1 else 0

theorem Tidy.accounts {es : List Event} (h : Tidy core) (h' : Accounts core core' es) :
    Tidy core' := by
  refine ⟨h'.keys, fun t => ?_, fun t => ?_⟩
  · have hbalance := h.balance t
    have hbalance' := h'.balance t
    rw [h'.trace, List.countP_append, List.countP_append]
    omega
  · have honce := h.once t
    have honce' := h'.once t
    rw [h'.trace, List.countP_append]
    by_cases hlt : t < nextToken core
    · -- an older token, which is not handed out again
      have hold : ¬ (t = nextToken core ∧ t < nextToken core') :=
        fun hnew => Nat.lt_irrefl t (hnew.1 ▸ hlt)
      rw [if_neg hold] at honce'
      rw [if_pos hlt] at honce
      rw [if_pos (Nat.lt_of_lt_of_le hlt h'.next)]
      omega
    · rw [if_neg hlt] at honce
      by_cases hlt' : t < nextToken core'
      · rw [if_pos hlt']
        split at honce' <;> omega
      · have hnot : ¬ (t = nextToken core ∧ t < nextToken core') := fun hnew => hlt' hnew.2
        rw [if_neg hnot] at honce'
        rw [if_neg hlt']
        omega

theorem accounts_made {e : Event} (h : Tidy core) (he : made e = some (nextToken core))
    (hspent : spent e = none) (htrace : core'.trace = core.trace ++ [e])
    (hnext : nextToken core' = nextToken core + 1)
    (hpeer : core'.primaryConnection = core.primaryConnection)
    (hkeys : ∀ key, key ∈ core'.dispatch.entries ∨ key ∈ core'.dispatch.asyncEntries →
      key = (core.primaryConnection, nextToken core) ∨
        key ∈ core.dispatch.entries ∨ key ∈ core.dispatch.asyncEntries)
    (howed : ∀ t, owed core' t = owed core t + if nextToken core = t then 1 else 0) :
    Accounts core core' [e] := by
  refine ⟨htrace, ?_, fun key hkey => ?_, fun t => ?_, fun t => ?_⟩
  · rw [hnext]
    exact Nat.le_succ _
  · rw [hpeer]
    obtain rfl | hkey := hkeys key hkey
    · rfl
    · exact h.keys key hkey
  · simp [howed t, spends, makes, hspent, he, List.countP_singleton]
  · by_cases ht : nextToken core = t
    · subst ht
      simp [makes, he, hnext]
    · simp [makes, he, ht]

theorem accounts_inserted (h : Tidy core) (sessionId : UInt16) (entry : DispatchEntry H) :
    Accounts core (inserted sessionId entry core) [.installed (nextToken core) sessionId] := by
  refine accounts_made h rfl rfl rfl rfl rfl (fun key hkey => ?_) fun t => ?_
  · obtain hkey | hkey := hkey
    · exact ((AList.mem_insert core.dispatch.entries).mp hkey).imp id .inl
    · exact .inr (.inr hkey)
  · have hpending : Pending (inserted sessionId entry core) t ↔
        t = nextToken core ∨ Pending core t := by
      simp [Pending, inserted, LooperCore.log, AList.mem_insert, nextToken]
    have hasync : PendingAsync (inserted sessionId entry core) t ↔ PendingAsync core t := Iff.rfl
    have hfree := h.free_nextToken
    simp only [owed, hpending, hasync]
    by_cases ht : t = nextToken core
    · subst ht
      simp [hfree.1, hfree.2]
    · simp [ht, Ne.symm ht]

theorem accounts_insertedAsync (h : Tidy core) (sessionId : UInt16) (futureDropped : Bool) :
    Accounts core (insertedAsync sessionId futureDropped core)
      [.installedAsync (nextToken core) sessionId] := by
  refine accounts_made h rfl rfl rfl rfl rfl (fun key hkey => ?_) fun t => ?_
  · obtain hkey | hkey := hkey
    · exact .inr (.inl hkey)
    · exact ((AList.mem_insert core.dispatch.asyncEntries).mp hkey).imp id .inr
  · have hpending : Pending (insertedAsync sessionId futureDropped core) t ↔ Pending core t :=
      Iff.rfl
    have hasync : PendingAsync (insertedAsync sessionId futureDropped core) t ↔
        t = nextToken core ∨ PendingAsync core t := by
      simp [PendingAsync, insertedAsync, LooperCore.log, AList.mem_insert, nextToken]
    have hfree := h.free_nextToken
    simp only [owed, hpending, hasync]
    by_cases ht : t = nextToken core
    · subst ht
      simp [hfree.1, hfree.2]
    · simp [ht, Ne.symm ht]

theorem accounts_spent {e : Event} (h : Tidy core) (he : spent e = some t)
    (htrace : core'.trace = core.trace ++ [e])
    (hpeer : core'.primaryConnection = core.primaryConnection)
    (hsession : core'.activeSession = core.activeSession)
    (hkeys : ∀ key, key ∈ core'.dispatch.entries ∨ key ∈ core'.dispatch.asyncEntries →
      key ∈ core.dispatch.entries ∨ key ∈ core.dispatch.asyncEntries)
    (howed : ∀ u, owed core' u + (if t = u then 1 else 0) = owed core u) :
    Accounts core core' [e] := by
  have hmade := made_of_spent he
  refine ⟨htrace, ?_, fun key hkey => ?_, fun u => ?_, fun u => ?_⟩
  · rw [nextToken, nextToken, hsession]
  · rw [hpeer]
    exact h.keys key (hkeys key hkey)
  · have hu := howed u
    simp only [List.countP_singleton, spends, makes, he, hmade, Option.some.injEq,
      decide_eq_true_eq, reduceCtorEq, decide_false, Bool.false_eq_true, ↓reduceIte]
    omega
  · simp [makes, hmade]

theorem accounts_removeEntry {e : Event} (h : Tidy core) (hp : Pending core t)
    (he : spent e = some t) :
    Accounts core ((removeEntry (core.primaryConnection, t) core).log e) [e] := by
  refine accounts_spent h he rfl rfl rfl ?_ fun u => ?_
  · exact fun key hkey => hkey.imp (fun hkey => (AList.mem_erase.mp hkey).2) id
  · have hpending : Pending ((removeEntry (core.primaryConnection, t) core).log e) u ↔
        u ≠ t ∧ Pending core u := Resolutions.pending_removeEntry
    have hasync : PendingAsync ((removeEntry (core.primaryConnection, t) core).log e) u ↔
        PendingAsync core u := Iff.rfl
    simp only [owed, hpending, hasync]
    by_cases hu : u = t
    · subst hu
      simp [hp, Nat.add_comm]
    · simp [hu, Ne.symm hu]

theorem accounts_removeAsync {e : Event} (h : Tidy core) (ha : PendingAsync core t)
    (he : spent e = some t) :
    Accounts core ((removeAsync (core.primaryConnection, t) core).log e) [e] := by
  refine accounts_spent h he rfl rfl rfl ?_ fun u => ?_
  · exact fun key hkey => hkey.imp id fun hkey => (AList.mem_erase.mp hkey).2
  · have hpending : Pending ((removeAsync (core.primaryConnection, t) core).log e) u ↔
        Pending core u := Iff.rfl
    have hasync : PendingAsync ((removeAsync (core.primaryConnection, t) core).log e) u ↔
        u ≠ t ∧ PendingAsync core u := by
      simp [PendingAsync, removeAsync, LooperCore.log, AList.mem_erase]
    simp only [owed, hpending, hasync]
    by_cases hu : u = t
    · subst hu
      simp [ha]
    · simp [hu, Ne.symm hu]

theorem countP_discarded {V : Type} {table : Table (PeerScope × Token) V} {peer : PeerScope}
    (h : ∀ key ∈ table, key.1 = peer) (t : Token) :
    (table.keys.map fun key => Event.discarded key.2).countP (spends t) =
      if (peer, t) ∈ table then 1 else 0 := by
  have hcount : (table.keys.map fun key => Event.discarded key.2).countP (spends t) =
      table.keys.count (peer, t) := by
    rw [List.countP_map, List.count]
    refine List.countP_congr fun key hkey => ?_
    have hpeer := h key (AList.mem_keys.mpr hkey)
    obtain ⟨p, u⟩ := key
    subst hpeer
    simp [spends, spent]
  rw [hcount, table.keys_nodup.count]
  simp only [AList.mem_keys]

theorem accounts_clear (h : Tidy core) : Accounts core (clear core).2
    ((core.dispatch.entries.keys ++ core.dispatch.asyncEntries.keys).map (.discarded ·.2)) := by
  refine ⟨rfl, Nat.le_refl _, ?_, fun t => ?_, fun t => ?_⟩
  · rintro key (hkey | hkey)
    · exact absurd hkey (AList.notMem_empty key)
    · exact absurd hkey (AList.notMem_empty key)
  · have hspends : ((core.dispatch.entries.keys ++ core.dispatch.asyncEntries.keys).map
        fun key => Event.discarded key.2).countP (spends t) = owed core t := by
      rw [List.map_append, List.countP_append,
        countP_discarded fun key hkey => h.keys key (.inl hkey),
        countP_discarded fun key hkey => h.keys key (.inr hkey)]
      rfl
    have hmakes : ((core.dispatch.entries.keys ++ core.dispatch.asyncEntries.keys).map
        fun key => Event.discarded key.2).countP (makes t) = 0 := by
      rw [List.countP_map, List.countP_eq_zero]
      exact fun key _ => by simp [makes, made]
    rw [hspends, hmakes]
    rfl
  · rw [List.countP_map, List.countP_eq_zero.mpr fun key _ => by simp [makes, made]]
    exact Nat.zero_le _

theorem EntryStep.accounts (h : EntryStep core core') (htidy : Tidy core) :
    ∃ es, Accounts core core' es := by
  cases h with
  | calm es hes htrace hdispatch hpeer hfewer =>
    refine ⟨es, htrace, hfewer.next, ?_, fun t => ?_, fun t => ?_⟩
    · rw [hdispatch, hpeer]
      exact htidy.keys
    · rw [(countP_calm hes t).1, (countP_calm hes t).2, owed_congr hdispatch hpeer]
      omega
    · rw [(countP_calm hes t).2]
      exact Nat.zero_le _
  | install sessionId entry hcore => exact hcore ▸ ⟨_, accounts_inserted htidy sessionId entry⟩
  | installAsync sessionId futureDropped hcore =>
    exact hcore ▸ ⟨_, accounts_insertedAsync htidy sessionId futureDropped⟩
  | spend t e hpending he hcore => exact hcore ▸ ⟨_, accounts_removeEntry htidy hpending he⟩
  | spendAsync t e hpending he hcore => exact hcore ▸ ⟨_, accounts_removeAsync htidy hpending he⟩
  | clear hcore => exact hcore ▸ ⟨_, accounts_clear htidy⟩

theorem tidy_step (h : EntryStep core core') (htidy : Tidy core) : Tidy core' := by
  obtain ⟨es, haccounts⟩ := h.accounts htidy
  exact htidy.accounts haccounts

theorem tidy_course (h : Course core core') (htidy : Tidy core) : Tidy core' := by
  induction h with
  | refl => exact htidy
  | tail _ hstep ih => exact tidy_step hstep ih

theorem tidy_of_exec {env : Env H} {op : Op} {o : Outcome DispatchOutcome} (htidy : Tidy core)
    (hexec : op.exec env core = (o, core')) : Tidy core' := by
  have hcourse : Ends (op.exec env) core fun _ core' => Course core core' :=
    (paces_exec op).always core
  unfold Ends at hcourse
  rw [hexec] at hcourse
  exact tidy_course hcourse htidy

/-- The states in which a core waits for the next thing to do, with any cap that
its session was set up with. -/
abbrev Reached (env : Env H) : LooperCore H → Prop :=
  (cores env fun core => ∃ handler primaryConnection k,
    core = capped handler primaryConnection k).Reachable fun _ _ => True

theorem reached_new (env : Env H) (handler : H) (primaryConnection : PeerScope) (k : UInt16) :
    Reached env (capped handler primaryConnection k) :=
  .start ⟨handler, primaryConnection, k, rfl⟩

theorem reached_next {env : Env H} (op : Op) (h : Reached env core)
    (hexec : op.exec env core = (.done .cont, core')) : Reached env core' :=
  .step op h trivial ((step_cores env).mpr hexec)

theorem reached_of_reachable {env : Env H} (h : Reachable env core) : Reached env core := by
  induction h with
  | start hcore =>
    obtain ⟨handler, primaryConnection, rfl⟩ := hcore
    exact .start ⟨handler, primaryConnection, 0, rfl⟩
  | step op _ _ hstep ih => exact .step op ih trivial hstep

theorem live_of_reached {env : Env H} (h : Reached env core) : Live core := by
  induction h with
  | start hcore =>
    obtain ⟨handler, primaryConnection, k, rfl⟩ := hcore
    exact live_capped handler primaryConnection k
  | step op _ _ hstep ih => exact live_of_exec env ih ((step_cores env).mp hstep)

theorem tidy_of_reached {env : Env H} (h : Reached env core) : Tidy core := by
  induction h with
  | start hcore =>
    obtain ⟨handler, primaryConnection, k, rfl⟩ := hcore
    exact tidy_capped handler primaryConnection k
  | step op _ _ hstep ih => exact tidy_of_exec ih ((step_cores env).mp hstep)

end Accounts

end Pane.EntrySteps
