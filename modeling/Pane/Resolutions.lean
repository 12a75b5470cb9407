import Pane.LiveCore
import Pane.CoreRequest

namespace Pane.Resolutions

open Pane.HashTable Pane.Messages Pane.Correlator Pane.Callbacks Pane.Unwinding Pane.LooperState
open Pane.CallbackEffects Pane.CoreDispatch Pane.RequestLedger Pane.Cascades Pane.Destruction
open Pane.LiveCore

variable {H : Type} (env : Env H) {core core' : LooperCore H} {call : Call} {t : Token}

theorem settles_called (hcall : token call = some t) (u : Token) :
    settles u (.called call) = decide (u = t) ∧ installs u (.called call) = false ∧
      decides u (.called call) = false := by
  cases call <;> simp_all [token, settles, installs, decides, eq_comm]

theorem pending_removeEntry {u : Token} :
    Pending (removeEntry (core.primaryConnection, t) core) u ↔ u ≠ t ∧ Pending core u := by
  simp [Pending, removeEntry]

theorem pendingAsync_removeAsync {u : Token} :
    PendingAsync (removeAsync (core.primaryConnection, t) core) u ↔
      u ≠ t ∧ PendingAsync core u := by
  simp [PendingAsync, removeAsync]

theorem books_entered {es : List Event} (h : Books none core) (hp : Pending core t)
    (hcall : token call = some t)
    (hs : Stays ((removeEntry (core.primaryConnection, t) core).log (.called call)) core')
    (htrace : core'.trace = core.trace ++ [.called call] ++ es) (hes : ∀ e ∈ es, isNeutral e) :
    Books (some t) core' := by
  rw [List.append_assoc, List.singleton_append] at htrace
  have hcount := neutral_counts hes
  have hsession : core'.activeSession = core.activeSession := hs.activeSession
  have hpend : ∀ u, Pending core' u ↔ u ≠ t ∧ Pending core u := fun u =>
    (pending_congr (by rw [hs.dispatch]) hs.primaryConnection).trans pending_removeEntry
  have hasync : ∀ u, PendingAsync core' u ↔ PendingAsync core u := fun u =>
    pendingAsync_congr (by rw [hs.dispatch]; rfl) hs.primaryConnection
  refine ⟨⟨?_, ?_, ?_, ?_, ?_, ?_⟩, ?_, ?_, ?_⟩
  · rw [hsession, hs.primaryConnection]
    exact h.peer
  · intro key hkey
    rw [hs.dispatch] at hkey
    rw [hs.primaryConnection]
    obtain hkey | hkey := hkey
    · exact h.keys key (.inl (AList.mem_erase.mp hkey).2)
    · exact h.keys key (.inr hkey)
  · intro u
    have hsettled := h.settled u
    simp only [htrace, List.countP_append, List.countP_cons, settles_called hcall u, hcount u,
      hpend]
    by_cases hu : u = t
    · subst hu
      simpa [hp] using hsettled
    · simpa [hu] using hsettled
  · intro u
    simp only [htrace, List.countP_append, List.countP_cons, settles_called hcall u, hcount u]
    simpa using h.decided u
  · intro u
    simp only [htrace, List.countP_append, List.countP_cons, settles_called hcall u, hcount u,
      hsession]
    simpa using h.installed u
  · exact h.kept_append htrace fun u => List.not_mem_cons_of_ne_of_not_mem nofun (hcount u).2.2.2
  · intro u
    have hagree := h.agree u
    rw [sessionOf, ← hsession] at hagree
    rw [hpend, hasync, sessionOf]
    by_cases hu : u = t
    · subst hu
      simpa [hp] using hagree
    · have hne : ¬ t = u := fun heq => hu heq.symm
      simpa [hu, hne] using hagree
  · intro u
    rw [hpend, hasync]
    exact fun hu => h.apart u hu.2
  · rintro u ⟨rfl⟩
    rw [hpend, hasync]
    exact ⟨fun hu => hu.1 rfl, h.apart t hp⟩

theorem books_removeAsync {e : Event} (h : Books none core) (hp : ¬ Pending core t)
    (ha : PendingAsync core t) (he : isNeutral e) :
    Books (some t) ((removeAsync (core.primaryConnection, t) core).log e) := by
  have hasync : ∀ u, PendingAsync ((removeAsync (core.primaryConnection, t) core).log e) u ↔
      u ≠ t ∧ PendingAsync core u := fun u => pendingAsync_removeAsync
  refine ⟨h.toLedger.extend rfl (by simpa using he) (fun _ => Iff.rfl) (Nat.le_refl _) h.peer ?_,
    ?_, ?_, ?_⟩
  · intro key hkey
    obtain hkey | hkey := hkey
    · exact h.keys key (.inl hkey)
    · exact h.keys key (.inr (AList.mem_erase.mp hkey).2)
  · intro u
    rw [hasync]
    change (sessionOf core u).isSome ↔ Pending core u ∨ _
    have hagree := h.agree u
    by_cases hu : u = t
    · subst hu
      simpa [hp, ha] using hagree
    · have hne : ¬ t = u := fun heq => hu heq.symm
      simpa [hu, hne] using hagree
  · intro u hpu
    rw [hasync]
    exact fun hau => h.apart u hpu hau.2
  · rintro u ⟨rfl⟩
    rw [hasync]
    exact ⟨hp, fun hau => hau.1 rfl⟩

theorem books_recordResolution (h : Books (some t) core) :
    Books none { core with activeSession := core.activeSession.recordResolution t } := by
  refine ⟨⟨h.peer, h.keys, h.settled, h.decided, h.installed, h.kept⟩, ?_, h.apart, by simp⟩
  intro u
  change (RequestCorrelator.sessionOf u (core.activeSession.correlator.recordResolution t)).isSome ↔
    Pending core u ∨ PendingAsync core u ∨ _
  rw [RequestCorrelator.sessionOf_recordResolution]
  have hagree := h.agree u
  rw [sessionOf] at hagree
  by_cases hu : u = t
  · subst hu
    have hfired := h.fired u rfl
    simp [hfired]
  · have hne : ¬ t = u := fun heq => hu heq.symm
    simpa [hu, hne] using hagree

theorem live_fire {code : DispatchEntry H → H → Callback H} {event : Event}
    (hcall : token call = some t) (hevent : isNeutral event)
    (hpanic : ∀ call p, event ≠ .panicked call p) (hlive : Live core) :
    Ends (fire env t call code event) core fun o core' =>
      match o with
      | .done none => Live core'
      | .done (some _) =>
          Live { core' with activeSession := core'.activeSession.recordResolution t }
      | .panicked => Shaken call (some t) core' ∨
          ∃ core₁, Shaken call (some t) core₁ ∧
            core' = core₁.log (.panicked call core₁.outstanding) := by
  cases he : core.dispatch.entries.lookup (core.primaryConnection, t) with
  | some entry =>
    have hp : Pending core t := mem_of_lookup he
    have hstart : ∀ call' p, Event.panicked call' p ∉ core.trace ++ [.called call] := by
      simpa using hlive.noPanic
    apply (fire_entry env he).mono
    intro o core' ho
    cases o with
    | done r =>
      obtain ⟨⟨flow, rfl⟩, hs, hpoisoned, es, htrace, hminor⟩ := ho
      have hbooks := books_entered hlive.books hp hcall hs htrace fun e he =>
        isNeutral_of_isMinor (hminor e he)
      exact ⟨books_recordResolution hbooks, hs.exited.trans hlive.exited,
        hs.exitTx.trans hlive.exitTx, hpoisoned.trans hlive.poisoned,
        noPanic_append hstart (minor_noPanic hminor) htrace⟩
    | panicked =>
      obtain ⟨⟨core₁, ⟨hs, es, htrace, hminor, hpoisoned⟩, rfl⟩, -⟩ := ho
      have hbooks := books_entered hlive.books hp hcall hs htrace fun e he =>
        isNeutral_of_isMinor (hminor e he)
      refine .inr ⟨core₁, ⟨hbooks, hs.exited.trans hlive.exited, hs.exitTx.trans hlive.exitTx, ?_,
        noPanic_append hstart (minor_noPanic hminor) htrace⟩, rfl⟩
      obtain heq | ⟨s, hs⟩ := hpoisoned
      · exact .inl (heq.trans hlive.poisoned)
      · exact .inr ⟨s, htrace ▸ List.mem_append_right _ hs⟩
  | none =>
    have hp : ¬ Pending core t := AList.lookup_eq_none.mp he
    cases ha : core.dispatch.asyncEntries.lookup (core.primaryConnection, t) with
    | none =>
      unfold Ends
      rw [fire_none env he ha]
      exact hlive
    | some entry =>
      have hasync : PendingAsync core t := mem_of_lookup ha
      have hno : ∀ e, (∀ call p, e ≠ .panicked call p) → ∀ call p,
          Event.panicked call p ∉ core.trace ++ [e] := by
        intro e he call p hmem
        obtain hmem | hmem := List.mem_append.mp hmem
        · exact hlive.noPanic call p hmem
        · exact he call p (List.mem_singleton.mp hmem).symm
      unfold Ends
      rw [fire_async env he ha]
      by_cases hd : entry.futureDropped
      · rw [if_pos hd]
        refine .inl ⟨books_removeAsync hlive.books hp hasync rfl, hlive.exited, hlive.exitTx,
          .inl hlive.poisoned, hno _ (by simp)⟩
      · rw [if_neg hd]
        exact ⟨books_recordResolution (books_removeAsync hlive.books hp hasync hevent),
          hlive.exited, hlive.exitTx, hlive.poisoned, hno _ hpanic⟩

theorem post_dispatchResolution {code : DispatchEntry H → H → Callback H} {event : Event}
    (hcall : token call = some t) (hevent : isNeutral event)
    (hpanic : ∀ call p, event ≠ .panicked call p) (hlive : Live core) :
    Ends (dispatchResolution env t (fire env t call code event)) core (Post env) := by
  apply Ends.bind
  apply Ends.catchUnwind
  apply (live_fire env hcall hevent hpanic hlive).mono
  intro o core₁ ho
  cases o with
  | done r =>
    cases r with
    | none => exact ho
    | some flow =>
      have hflow : Ends (flowToOutcome env flow) _ (PostOf env call) :=
        post_flowToOutcome env ho flow
      exact hflow.mono fun _ _ h => h.post
  | panicked =>
    obtain hshaken | ⟨core₂, hshaken, rfl⟩ := ho
    · exact post_failed_unlogged env hshaken
    · have hfiring : ∀ u, some t = some u → token call = some u := fun u hu => hu ▸ hcall
      exact (post_failed env hshaken hfiring).mono fun _ _ h => h.post

theorem post_dispatchReply (sessionId : UInt16) (t : Token) (replyBytes : Bytes)
    (hlive : Live core) : Ends (dispatchReply env sessionId t replyBytes) core (Post env) :=
  post_dispatchResolution env rfl rfl (by simp) hlive

theorem post_dispatchFailed (sessionId : UInt16) (t : Token) (hlive : Live core) :
    Ends (dispatchFailed env sessionId t) core (Post env) :=
  post_dispatchResolution env rfl rfl (by simp) hlive

theorem swept_dispatchTeardown (sessionId : UInt16) (hlive : Live core) :
    Ends (dispatchTeardown env sessionId) core fun o core' =>
      match o with
      | .done _ => Swept (core.activeSession.correlator.tokensForSession
            (env.order core.trace.length) sessionId)
          (condemned core (core.activeSession.cascadeSessionFailure
            (env.order core.trace.length) sessionId)) core'
      | .panicked => CascadeBroke env core' := by
  refine swept_cascade env core (fun order => ActiveSession.cascadeSessionFailure order sessionId)
    ?_ (RequestCorrelator.nodup_tokensForSession _ _)
  rw [ActiveSession.cascadeSessionFailure, hlive.books.peer]

theorem live_dispatchTeardown (sessionId : UInt16) (hlive : Live core) :
    Ends (dispatchTeardown env sessionId) core fun o core' =>
      match o with
      | .done _ => Live core'
      | .panicked => CascadeBroke env core' := by
  apply (swept_dispatchTeardown env sessionId hlive).mono
  intro o core' ho
  cases o with
  | panicked => exact ho
  | done _ =>
    obtain ⟨es, htrace, hes, -⟩ := ho.trace
    exact ⟨books_teardown hlive.books ho, ho.exited.trans hlive.exited,
      ho.exitTx.trans hlive.exitTx, ho.poisoned.trans hlive.poisoned,
      noPanic_append hlive.noPanic (failure_counts hes 0).2.2.2.2 htrace⟩

end Pane.Resolutions
