import Pane.Resolutions

namespace Pane.RequestSafety

open Pane.HashTable Pane.Messages Pane.Correlator Pane.Callbacks Pane.Unwinding Pane.LooperState
open Pane.CallbackEffects Pane.CoreDispatch Pane.CoreRequest Pane.RequestLedger Pane.Destruction
open Pane.LiveCore Pane.Resolutions

variable {H : Type} (env : Env H) {core core' : LooperCore H} {call : Call} {t : Token}

theorem not_pending_nextToken (h : Books none core) :
    ¬ Pending core core.activeSession.correlator.nextToken ∧
      ¬ PendingAsync core core.activeSession.correlator.nextToken := by
  have hnone : ¬ (sessionOf core core.activeSession.correlator.nextToken).isSome := by
    simp [sessionOf]
  rw [h.agree] at hnone
  exact ⟨fun hp => hnone (.inl hp), fun ha => hnone (.inr (.inl ha))⟩

theorem countP_nextToken (h : Ledger core) :
    core.trace.countP (installs core.activeSession.correlator.nextToken) = 0 ∧
      core.trace.countP (decides core.activeSession.correlator.nextToken) = 0 := by
  have hinstalled := h.installed core.activeSession.correlator.nextToken
  have hdecided := h.decided core.activeSession.correlator.nextToken
  rw [if_neg (Nat.lt_irrefl _)] at hinstalled
  omega

def inserted (sessionId : UInt16) (entry : DispatchEntry H) (core : LooperCore H) :
    LooperCore H :=
  let token := core.activeSession.correlator.nextToken
  { core.log (.installed token sessionId) with
    activeSession := (core.activeSession.allocateToken sessionId).2
    dispatch.entries := core.dispatch.entries.insert (core.primaryConnection, token) entry }

theorem insert_apply (sessionId : UInt16) (entry : DispatchEntry H) (core : LooperCore H) :
    insert sessionId entry core =
      (.done core.activeSession.correlator.nextToken, inserted sessionId entry core) := rfl

theorem sessionOf_allocateToken (sessionId : UInt16) (a : ActiveSession) (t : Token) :
    (a.allocateToken sessionId).2.correlator.sessionOf t =
      if t = a.correlator.nextToken then some sessionId else a.correlator.sessionOf t :=
  RequestCorrelator.sessionOf_allocateToken a.correlator

theorem isSome_sessionOf_allocateToken (sessionId : UInt16) (core : LooperCore H) (t : Token) :
    ((core.activeSession.allocateToken sessionId).2.correlator.sessionOf t).isSome ↔
      t = core.activeSession.correlator.nextToken ∨ (sessionOf core t).isSome := by
  rw [sessionOf_allocateToken]
  by_cases ht : t = core.activeSession.correlator.nextToken
  · simp [ht]
  · simp [ht, sessionOf]

theorem live_inserted (sessionId : UInt16) (entry : DispatchEntry H) (hlive : Live core) :
    Live (inserted sessionId entry core) := by
  have hbooks := hlive.books
  have hpend : ∀ u, Pending (inserted sessionId entry core) u ↔
      u = core.activeSession.correlator.nextToken ∨ Pending core u := by
    intro u
    simp [Pending, inserted, LooperCore.log, AList.mem_insert]
  have hasync : ∀ u, PendingAsync (inserted sessionId entry core) u ↔ PendingAsync core u :=
    fun u => Iff.rfl
  obtain ⟨hnot, hnotAsync⟩ := not_pending_nextToken hbooks
  obtain ⟨hinstalls, hdecides⟩ := countP_nextToken hbooks.toLedger
  have htrace : (inserted sessionId entry core).trace =
      core.trace ++ [.installed core.activeSession.correlator.nextToken sessionId] := rfl
  refine ⟨⟨⟨hbooks.peer, ?_, ?_, ?_, ?_, ?_⟩, ?_, ?_, by simp⟩, hlive.exited, hlive.exitTx,
    hlive.poisoned, ?_⟩
  · intro key hkey
    obtain hkey | hkey := hkey
    · obtain rfl | hkey := (AList.mem_insert core.dispatch.entries).mp hkey
      · rfl
      · exact hbooks.keys key (.inl hkey)
    · exact hbooks.keys key (.inr hkey)
  · intro u
    have hsettled := hbooks.settled u
    simp only [htrace, List.countP_append, hpend]
    by_cases hu : u = core.activeSession.correlator.nextToken
    · subst hu
      simpa [settles, installs, hnot] using hsettled
    · have hne : ¬ core.activeSession.correlator.nextToken = u := fun heq => hu heq.symm
      simpa [settles, installs, hu, hne] using hsettled
  · intro u
    have hdecided := hbooks.decided u
    rw [htrace, List.countP_append, List.countP_append]
    simp only [decides, List.countP_singleton, Bool.false_eq_true, ↓reduceIte, Nat.add_zero]
    omega
  · intro u
    rw [htrace, List.countP_append]
    by_cases hu : u = core.activeSession.correlator.nextToken
    · subst hu
      change _ ≤ if _ < core.activeSession.correlator.nextToken + 1 then 1 else 0
      simp [hinstalls, installs]
    · have hne : ¬ core.activeSession.correlator.nextToken = u := fun heq => hu heq.symm
      simp only [installs, hne, List.countP_singleton, decide_false, Bool.false_eq_true, ↓reduceIte,
        Nat.add_zero]
      exact hbooks.installed_le (Nat.le_succ _) u
  · exact hbooks.kept_append htrace (by simp)
  · intro u
    refine (isSome_sessionOf_allocateToken sessionId core u).trans ?_
    rw [hbooks.agree, hpend, hasync, or_assoc]
  · intro u
    rw [hpend, hasync]
    rintro (rfl | hu)
    · exact hnotAsync
    · exact hbooks.apart u hu
  · exact noPanic_append hlive.noPanic (by simp) htrace

def insertedAsync (sessionId : UInt16) (futureDropped : Bool) (core : LooperCore H) :
    LooperCore H :=
  let token := core.activeSession.correlator.nextToken
  { core.log (.installedAsync token sessionId) with
    activeSession := (core.activeSession.allocateToken sessionId).2
    dispatch.asyncEntries :=
      core.dispatch.asyncEntries.insert (core.primaryConnection, token) ⟨futureDropped⟩ }

theorem live_insertedAsync (sessionId : UInt16) (futureDropped : Bool) (hlive : Live core) :
    Live (insertedAsync sessionId futureDropped core) := by
  have hbooks := hlive.books
  have hpend : ∀ u, Pending (insertedAsync sessionId futureDropped core) u ↔ Pending core u :=
    fun u => Iff.rfl
  have hasync : ∀ u, PendingAsync (insertedAsync sessionId futureDropped core) u ↔
      u = core.activeSession.correlator.nextToken ∨ PendingAsync core u := by
    intro u
    simp [PendingAsync, insertedAsync, LooperCore.log, AList.mem_insert]
  obtain ⟨hnot, -⟩ := not_pending_nextToken hbooks
  have htrace : (insertedAsync sessionId futureDropped core).trace =
      core.trace ++ [.installedAsync core.activeSession.correlator.nextToken sessionId] := rfl
  refine ⟨⟨hbooks.toLedger.extend htrace (by simp [isNeutral]) hpend (Nat.le_succ _) hbooks.peer ?_,
    ?_, ?_, by simp⟩, hlive.exited, hlive.exitTx, hlive.poisoned, ?_⟩
  · intro key hkey
    obtain hkey | hkey := hkey
    · exact hbooks.keys key (.inl hkey)
    · obtain rfl | hkey := (AList.mem_insert core.dispatch.asyncEntries).mp hkey
      · rfl
      · exact hbooks.keys key (.inr hkey)
  · intro u
    refine (isSome_sessionOf_allocateToken sessionId core u).trans ?_
    rw [hbooks.agree, hpend, hasync, or_assoc]
    exact or_left_comm
  · intro u hu
    rw [hasync]
    rintro (rfl | ha)
    · exact hnot hu
    · exact hbooks.apart u hu ha
  · exact noPanic_append hlive.noPanic (by simp) htrace

structure Fresh (t : Token) (core : LooperCore H) : Prop where
  live : Live core
  pending : Pending core t
  undecided : core.trace.countP (decides t) = 0

theorem fresh_inserted (sessionId : UInt16) (entry : DispatchEntry H) (hlive : Live core) :
    Fresh core.activeSession.correlator.nextToken (inserted sessionId entry core) := by
  refine ⟨live_inserted sessionId entry hlive, ?_, ?_⟩
  · simp [Pending, inserted, LooperCore.log]
  · have h := (countP_nextToken hlive.books.toLedger).2
    simp [inserted, LooperCore.log, List.countP_append, h, decides]

theorem fresh_still (h : Fresh t core) (hstill : Still core core') : Fresh t core' := by
  obtain ⟨hstays, -, es, htrace, hminor⟩ := id hstill
  refine ⟨keeps_of_still hstill h.live, ?_, ?_⟩
  · exact (pending_congr (by rw [hstays.dispatch]) hstays.primaryConnection).mpr h.pending
  · rw [htrace, List.countP_append, h.undecided,
      (neutral_counts (fun e he => isNeutral_of_isMinor (hminor e he)) t).2.2.1]

theorem countP_installs_of_pending (h : Ledger core) (hp : Pending core t) :
    core.trace.countP (installs t) = 1 := by
  have hsettled := h.settled t
  rw [if_pos hp] at hsettled
  exact Nat.le_antisymm (h.installed_le_one t) (hsettled ▸ Nat.le_add_left 1 _)

theorem live_queued (h : Fresh t core) : Live (core.log (.queued t)) := by
  have hbooks := h.live.books
  have hone := countP_installs_of_pending hbooks.toLedger h.pending
  refine ⟨⟨⟨hbooks.peer, hbooks.keys, ?_, ?_, ?_, ?_⟩, hbooks.agree, hbooks.apart, hbooks.fired⟩,
    h.live.exited, h.live.exitTx, h.live.poisoned, noPanic_append h.live.noPanic (by simp) rfl⟩
  · intro u
    simp only [LooperCore.log, List.countP_append, List.countP_singleton, settles, installs,
      Bool.false_eq_true, ↓reduceIte, Nat.add_zero]
    exact hbooks.settled u
  · intro u
    simp only [LooperCore.log, List.countP_append, List.countP_singleton, decides, installs,
      Bool.false_eq_true, ↓reduceIte, Nat.add_zero]
    by_cases hu : t = u
    · subst hu
      simp [h.undecided, hone]
    · simpa [hu] using hbooks.decided u
  · intro u
    simp only [LooperCore.log, List.countP_append, List.countP_singleton, installs,
      Bool.false_eq_true, ↓reduceIte, Nat.add_zero]
    exact hbooks.installed u
  · exact hbooks.kept_append rfl (by simp)

def rolledBack (t : Token) (core : LooperCore H) : LooperCore H :=
  { (removeEntry (core.primaryConnection, t) core).log (.cancelled t) with
    activeSession := core.activeSession.recordResolution t }

theorem live_rolledBack (h : Fresh t core) : Live (rolledBack t core) := by
  have hbooks := h.live.books
  have hone := countP_installs_of_pending hbooks.toLedger h.pending
  have hpend : ∀ u, Pending (rolledBack t core) u ↔ u ≠ t ∧ Pending core u := fun u =>
    pending_removeEntry
  have hasync : ∀ u, PendingAsync (rolledBack t core) u ↔ PendingAsync core u := fun u => Iff.rfl
  have htrace : (rolledBack t core).trace = core.trace ++ [.cancelled t] := rfl
  refine ⟨⟨⟨hbooks.peer, ?_, ?_, ?_, ?_, ?_⟩, ?_, ?_, by simp⟩, h.live.exited, h.live.exitTx,
    h.live.poisoned, noPanic_append h.live.noPanic (by simp) htrace⟩
  · intro key hkey
    obtain hkey | hkey := hkey
    · exact hbooks.keys key (.inl (AList.mem_erase.mp hkey).2)
    · exact hbooks.keys key (.inr hkey)
  · intro u
    have hsettled := hbooks.settled u
    simp only [htrace, List.countP_append, List.countP_singleton, settles, installs, hpend]
    by_cases hu : u = t
    · subst hu
      simpa [h.pending] using hsettled
    · have hne : ¬ t = u := fun heq => hu heq.symm
      simpa [hu, hne] using hsettled
  · intro u
    simp only [htrace, List.countP_append, List.countP_singleton, decides, installs]
    by_cases hu : t = u
    · subst hu
      simp [h.undecided, hone]
    · simpa [hu] using hbooks.decided u
  · intro u
    simp only [htrace, List.countP_append, List.countP_singleton, installs, Bool.false_eq_true,
      ↓reduceIte, Nat.add_zero]
    exact hbooks.installed u
  · exact hbooks.kept_append htrace (by simp)
  · intro u
    rw [hpend, hasync]
    change (RequestCorrelator.sessionOf u (core.activeSession.correlator.recordResolution t)).isSome
      ↔ _
    rw [RequestCorrelator.sessionOf_recordResolution]
    have hagree := hbooks.agree u
    rw [sessionOf] at hagree
    by_cases hu : u = t
    · subst hu
      simp [hbooks.apart u h.pending]
    · simpa [hu] using hagree
  · intro u
    rw [hpend, hasync]
    exact fun hu => hbooks.apart u hu.2

theorem fresh_sendRequestFrame (direct : Bool) (sessionId : UInt16) (payload : Bytes)
    (h : Fresh t core) :
    Ends (sendRequestFrame env direct sessionId t payload) core fun o core' =>
      match o with
      | .done (.ok _) => Live core'
      | .done (.error _) => Fresh t core'
      | .panicked => core' = core ∧ env.pc.frameToAllocvec (.request t payload) = none := by
  unfold sendRequestFrame
  cases hframe : env.pc.frameToAllocvec (.request t payload) with
  | none => exact ⟨rfl, rfl⟩
  | some outer =>
    cases direct with
    | true => exact live_queued (fresh_still h (.single ⟨rfl, rfl, rfl, rfl, rfl, rfl⟩ rfl rfl rfl))
    | false =>
      refine Ends.bind ?_
      unfold Ends
      simp only [trySend_apply]
      cases env.trySend core.trace.length with
      | ok u => exact live_queued (fresh_still h (.single ⟨rfl, rfl, rfl, rfl, rfl, rfl⟩ rfl rfl rfl))
      | error b => exact fresh_still h (.single ⟨rfl, rfl, rfl, rfl, rfl, rfl⟩ rfl rfl rfl)

theorem cancel_fresh (h : Fresh t core) :
    cancel t core =
      (.done true, (removeEntry (core.primaryConnection, t) core).log (.cancelled t)) := by
  have hmem : (core.primaryConnection, t) ∈ core.dispatch.entries := h.pending
  simp [cancel, Code.bind_apply, hmem]

theorem ctxCancel_fresh (h : Fresh t core) : ctxCancel t core = (.done (), rolledBack t core) := by
  simp only [ctxCancel, Code.bind_apply, cancel_fresh h]
  rfl

theorem moves_of_live {α : Type} {m : Loop H α} (h : ∀ core, Live core → Ends m core fun o core' =>
    match o with
    | .done _ => Live core'
    | .panicked => Shaken call none core') : Moves Keeps (Shakes call) m := by
  intro core
  have hcore := h core
  unfold Ends at hcore ⊢
  cases ho : (m core).1 with
  | done a =>
    rw [ho] at hcore
    exact hcore
  | panicked =>
    rw [ho] at hcore
    exact hcore

theorem keeps_installAndSend (direct : Bool) (handle : ServiceHandle) (msg : Option Bytes)
    (entry : DispatchEntry H) :
    Moves Keeps (Shakes call) (installAndSend env direct handle msg entry) := by
  apply moves_of_live
  intro core hlive
  have hfresh := fresh_inserted handle.sessionId entry hlive
  refine Ends.bind (Ends.congr (Ends.pure ?_) (insert_apply handle.sessionId entry core))
  cases msg with
  | none => exact hfresh.live.shaken
  | some msg =>
    refine Ends.seq (fresh_sendRequestFrame env direct handle.sessionId (handle.tag :: msg) hfresh)
      ?_ ?_
    · intro answer core₁ ho
      cases answer with
      | ok u => exact Ends.pure ho
      | error reason =>
        refine Ends.bind (Ends.congr (Ends.pure ?_) (ctxCancel_fresh ho))
        exact live_rolledBack ho
    · rintro core₁ ⟨rfl, -⟩
      exact hfresh.live.shaken

theorem keeps_performCtx (direct : Bool) (effect : CtxEffect H) :
    Moves Keeps (Shakes call) (performCtx env direct call effect) := by
  cases effect with
  | plain effect => exact keeps_perform env effect
  | sendRequest handle msg entry =>
    refine Moves.bind (Moves.bind (Moves.gets _) fun exceeds => ?_) fun _ => Moves.pure _
    cases exceeds with
    | true => exact Moves.unwind
    | false => exact Moves.bind (keeps_installAndSend env direct handle msg entry) fun _ => Moves.pure _
  | trySendRequest handle msg entry =>
    refine Moves.bind (Moves.gets _) fun exceeds => ?_
    cases exceeds with
    | true => exact Moves.pure _
    | false => exact keeps_installAndSend env direct handle msg entry
  | insertAsync sessionId futureDropped =>
    refine Moves.bind ?_ fun _ => Moves.pure _
    intro core hlive
    exact live_insertedAsync sessionId futureDropped hlive

theorem live_log {e : Event} (he : isNeutral e) (hpanic : ∀ call p, e ≠ .panicked call p)
    (hlive : Live core) : Live (core.log e) := by
  refine hlive.neutral ⟨rfl, rfl, rfl, rfl, rfl, rfl⟩ rfl rfl (by simpa using he) ?_
  intro call p hmem
  exact hpanic call p (List.mem_singleton.mp hmem).symm

def Stable {α : Type} (m : Loop H α) : Prop :=
  ∀ core, Live core → Ends m core fun o core' =>
    match o with
    | .done _ => Live core'
    | .panicked => False

theorem stable_pure {α : Type} (a : α) : Stable (pure a : Loop H α) := fun _ hlive => hlive

theorem stable_bind {α β : Type} {m : Loop H α} {f : α → Loop H β} (hm : Stable m)
    (hf : ∀ a, Stable (f a)) : Stable (m >>= f) := fun core hlive =>
  Ends.seq (hm core hlive) (fun a core' h => hf a core' h) fun _ h => h.elim

theorem live_processSyncRequest (req : SyncRequest) (hlive : Live core) :
    Ends (processSyncRequest env req) core fun o core' =>
      match o with
      | .done _ => Live core'
      | .panicked => ∃ frame, env.pc.frameToAllocvec frame = none := by
  have hfresh := fresh_inserted req.sessionId (SyncRequest.entry (H := H)) hlive
  refine Ends.bind (Ends.congr (Ends.pure ?_) (insert_apply req.sessionId _ core))
  refine Ends.seq (fresh_sendRequestFrame env false req.sessionId req.wirePayload hfresh) ?_
    fun _ h => ⟨_, h.2⟩
  intro answer core₁ ho
  cases answer with
  | ok u => exact Ends.pure ho
  | error reason =>
    refine Ends.bind (Ends.congr (Ends.pure ?_) (cancel_fresh ho))
    exact live_rolledBack ho

theorem stable_trySend (service : UInt16) (payload : Bytes) :
    Stable (trySend env service payload) := by
  intro core hlive
  unfold Ends
  rw [trySend_apply]
  cases env.trySend core.trace.length with
  | ok u => exact live_log rfl (by simp) hlive
  | error b => exact live_log rfl (by simp) hlive

theorem stable_sendControl (msg : ControlMessage) : Stable (sendControl env msg) := by
  unfold sendControl
  split
  · exact stable_bind (stable_trySend env _ _) fun _ => stable_pure _
  · exact stable_pure _

theorem stable_sendFailed (sessionId : UInt16) (token : Token) :
    Stable (sendFailed env sessionId token) := by
  unfold sendFailed
  split
  · exact stable_bind (stable_trySend env _ _) fun _ => stable_pure _
  · exact stable_pure _

theorem stable_openPort (sessionId : UInt16) (token : Token) (payload : Bytes) :
    Stable (openPort (H := H) sessionId token payload) := by
  intro core hlive
  refine hlive.neutral ⟨rfl, rfl, rfl, rfl, rfl, rfl⟩ rfl rfl ?_ ?_
  · simp [isNeutral]
  · simp

theorem live_serveRequest (direct : Bool) (sessionId : UInt16) (token : Token) (inner : Bytes)
    (hlive : Live core) :
    Ends (serveRequest env direct sessionId token inner) core fun o core' =>
      match o with
      | .done _ => Live core'
      | .panicked => ∃ core₁, Shaken (.receiveRequest sessionId token inner) none core₁ ∧
          core' = core₁.log
            (.panicked (.receiveRequest sessionId token inner) core₁.outstanding) := by
  unfold serveRequest
  split
  · refine Ends.seq (stable_sendFailed env sessionId token core hlive) ?_ fun _ h => h.elim
    exact fun _ _ h => Ends.pure h
  · refine Ends.seq (stable_openPort sessionId token inner core hlive) ?_ fun _ h => h.elim
    exact fun port core' h => live_enter rfl (keeps_performCtx env direct) h

theorem post_dispatchRequestWithContext (direct : Bool) (sessionId : UInt16) (token : Token)
    (inner : Bytes) (hlive : Live core) :
    Ends (dispatchRequestWithContext env direct sessionId token inner) core (Post env) := by
  apply Ends.modify
  have hserve := live_serveRequest env direct sessionId token inner
    (live_log (e := .handed sessionId (.request token inner)) rfl (by simp) hlive)
  exact (post_guarded env hserve).mono fun _ _ h => h.post

theorem post_dispatchNotification (sessionId : UInt16) (inner : Bytes) (hlive : Live core) :
    Ends (dispatchNotification env sessionId inner) core (Post env) := by
  apply Ends.modify
  have hhanded := live_log (e := .handed sessionId (.notification inner)) rfl (by simp) hlive
  split
  · exact hhanded
  · exact (post_guarded env (live_enter rfl (keeps_perform env) hhanded)).mono fun _ _ h => h.post

theorem post_dispatchService (sessionId : UInt16) (payload : Bytes) (hlive : Live core) :
    Ends (dispatchService env sessionId payload) core (Post env) := by
  unfold dispatchService
  split
  · exact hlive
  · exact post_dispatchNotification env _ _ hlive
  · exact post_dispatchRequestWithContext env _ _ _ _ hlive
  · exact post_dispatchReply env _ _ _ hlive
  · exact post_dispatchFailed env _ _ hlive

end Pane.RequestSafety
