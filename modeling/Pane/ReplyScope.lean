import Pane.LooperSafety
import Pane.VisibleEvents
import Pane.PostcardFormat

namespace Pane.ReplyScope

open Pane.HashTable Pane.Messages Pane.Correlator Pane.Callbacks Pane.Unwinding Pane.LooperState
open Pane.CallbackEffects Pane.CoreDispatch Pane.CoreRequest Pane.CoreRuns Pane.RequestLedger
open Pane.Cascades Pane.LiveCore Pane.LooperSafety Pane.VisibleEvents Pane.PostcardFormat

variable {H : Type} (env : Env H) {core core' : LooperCore H} {t : Token}

/-- What a peer can answer to a request. -/
inductive Answer
  | reply (bytes : Bytes)
  | failed

namespace Answer

def frame (t : Token) : Answer → ServiceFrame
  | .reply bytes => .reply t bytes
  | .failed => .failed t

def call (t : Token) : Answer → Call
  | .reply bytes => .onReply t bytes
  | .failed => .onFailed t

def closure : Answer → DispatchEntry H → H → Callback H
  | .reply bytes => fun entry => entry.onReply bytes
  | .failed => DispatchEntry.onFailed

def event (t : Token) : Answer → Event
  | .reply _ => .resolved t
  | .failed => .rejected t

end Answer

theorem dispatchFrame_answer (direct : Bool) (sessionId : UInt16) (t : Token) (answer : Answer) :
    dispatchFrame env direct sessionId (answer.frame t) = dispatchResolution env t
      (fire env t (answer.call t) answer.closure (answer.event t)) := by
  cases answer with
  | reply bytes => rfl
  | failed => rfl

/-- One request is resolved, and nothing happens to the other ones. -/
structure Resolved (t : Token) (core core' : LooperCore H) : Prop where
  entries : ∀ key, core'.dispatch.entries.lookup key =
    if key = (core.primaryConnection, t) then none else core.dispatch.entries.lookup key
  asyncEntries : ∀ key, core'.dispatch.asyncEntries.lookup key =
    if key = (core.primaryConnection, t) then none else core.dispatch.asyncEntries.lookup key
  activeSession : core'.activeSession = core.activeSession.recordResolution t
  trace : ∃ e es, core'.trace = core.trace ++ e :: es ∧ ∀ e ∈ es, isMinor e

/-- The first thing that happens is that the entry of the token is used. -/
def Uses (t : Token) (answer : Answer) (core core' : LooperCore H) : Prop :=
  ∃ e es, core'.trace = core.trace ++ e :: es ∧
    if Pending core t then e = .called (answer.call t)
    else e = answer.event t ∨ e = .futureGone t

theorem Uses.hidden {answer : Answer} {core'' : LooperCore H} (h : Uses t answer core core')
    (h' : Hidden core' core'') : Uses t answer core core'' := by
  obtain ⟨e, es, htrace, he⟩ := h
  obtain ⟨es', htrace', -⟩ := h'
  exact ⟨e, es ++ es', by rw [htrace', htrace, List.append_assoc, List.cons_append], he⟩

theorem fire_uses (hlive : Live core) (ht : (sessionOf core t).isSome) (answer : Answer) :
    Ends (fire env t (answer.call t) answer.closure (answer.event t)) core fun o core' =>
      Uses t answer core core' ∧ o ≠ .done none ∧ ∀ flow, o = .done (some flow) →
        Resolved t core { core' with activeSession := core'.activeSession.recordResolution t } := by
  cases he : core.dispatch.entries.lookup (core.primaryConnection, t) with
  | some entry =>
    have hp : Pending core t := mem_of_lookup he
    have ha : core.dispatch.asyncEntries.lookup (core.primaryConnection, t) = none :=
      AList.lookup_eq_none.mpr (hlive.books.apart t hp)
    apply (fire_entry env he).mono
    intro o core' ho
    cases o with
    | done r =>
      obtain ⟨⟨flow, rfl⟩, hs, -, es, htrace, hminor⟩ := ho
      have htrace' : core'.trace = core.trace ++ .called (answer.call t) :: es := by
        rw [htrace, LooperCore.log, List.append_assoc]
        rfl
      refine ⟨⟨_, es, htrace', by rw [if_pos hp]⟩, by simp, fun _ _ => ⟨?_, ?_, ?_, ?_⟩⟩
      · intro key
        rw [hs.dispatch, LooperCore.log, removeEntry, lookup_erase]
      · intro key
        rw [hs.dispatch]
        by_cases hkey : key = (core.primaryConnection, t)
        · rw [if_pos hkey, hkey]
          exact ha
        · rw [if_neg hkey]
          rfl
      · exact congrArg (ActiveSession.recordResolution t) hs.activeSession
      · exact ⟨_, es, htrace', hminor⟩
    | panicked =>
      obtain ⟨⟨core₁, ⟨-, es, htrace, -, -⟩, rfl⟩, -⟩ := ho
      refine ⟨⟨.called (answer.call t), es ++ [.panicked (answer.call t) core₁.outstanding], ?_,
        by rw [if_pos hp]⟩, by simp, by simp⟩
      rw [LooperCore.log, htrace, LooperCore.log, List.append_assoc, List.append_assoc]
      rfl
  | none =>
    have hp : ¬ Pending core t := AList.lookup_eq_none.mp he
    cases ha : core.dispatch.asyncEntries.lookup (core.primaryConnection, t) with
    | none =>
      have hasync : ¬ PendingAsync core t := AList.lookup_eq_none.mp ha
      have hagree := (hlive.books.agree t).mp ht
      simp [hp, hasync] at hagree
    | some entry =>
      unfold Ends
      rw [fire_async env he ha]
      split
      · exact ⟨⟨_, [], rfl, by rw [if_neg hp]; exact .inr rfl⟩, by simp, by simp⟩
      · refine ⟨⟨_, [], rfl, by rw [if_neg hp]; exact .inl rfl⟩, by simp, fun _ _ => ⟨?_, ?_, rfl, ?_⟩⟩
        · intro key
          by_cases hkey : key = (core.primaryConnection, t)
          · rw [if_pos hkey, hkey]
            exact he
          · rw [if_neg hkey]
            rfl
        · intro key
          exact lookup_erase ..
        · exact ⟨_, [], rfl, by simp⟩

theorem dispatchResolution_uses (hlive : Live core) (ht : (sessionOf core t).isSome)
    (answer : Answer) :
    Ends (dispatchResolution env t (fire env t (answer.call t) answer.closure (answer.event t))) core
      fun o core' => Uses t answer core core' ∧ (o = .done .cont → Resolved t core core') := by
  apply Ends.bind
  apply Ends.catchUnwind
  apply (fire_uses env hlive ht answer).mono
  rintro o core₁ ⟨huses, hsome, hresolved⟩
  cases o with
  | panicked =>
    refine Ends.seq ((hidden_runDestruction env .failed).always core₁) ?_ ?_
    · exact fun _ core₂ h => Ends.pure ⟨huses.hidden h, by simp⟩
    · exact fun core₂ h => ⟨huses.hidden h, by simp⟩
  | done r =>
    cases r with
    | none => exact absurd rfl hsome
    | some flow =>
      have huses' : Uses t answer core
          { core₁ with activeSession := core₁.activeSession.recordResolution t } := huses
      cases flow with
      | cont => exact Ends.modify (Ends.pure ⟨huses', fun _ => hresolved _ rfl⟩)
      | stop =>
        refine Ends.modify (Ends.seq ((hidden_runDestruction env .graceful).always _) ?_ ?_)
        · exact fun _ core₂ h => Ends.pure ⟨huses'.hidden h, by simp⟩
        · exact fun core₂ h => ⟨huses'.hidden h, by simp⟩

theorem matched_of_live (hlive : Live core) (direct : Bool) (sessionId : UInt16) (t : Token)
    (answer : Answer) :
    (sessionOf core t = none →
      dispatchFrame env direct sessionId (answer.frame t) core = (.done .cont, core)) ∧
    (∀ sent, sessionOf core t = some sent →
      Ends (dispatchFrame env direct sessionId (answer.frame t)) core fun o core' =>
        Uses t answer core core' ∧ (o = .done .cont → Resolved t core core')) := by
  rw [dispatchFrame_answer]
  refine ⟨fun hnone => ?_, fun sent hsent => ?_⟩
  · have hagree : ¬ (Pending core t ∨ PendingAsync core t ∨ none = some t) := by
      rw [← hlive.books.agree t, hnone]
      simp
    have he := AList.lookup_eq_none.mpr fun hp => hagree (.inl hp)
    have ha := AList.lookup_eq_none.mpr fun hp => hagree (.inr (.inl hp))
    simp only [dispatchResolution, Code.bind_apply, Code.catchUnwind, fire_none env he ha]
    rfl
  · exact dispatchResolution_uses env hlive (by rw [hsent]; rfl) answer

/-- Answers are matched by token alone, on whatever session they arrive. For a
token that is not outstanding nothing happens. For an outstanding one its entry
is used, and if the looper goes on after it, this request is resolved and every
other one is as it was. -/
theorem answers_matched_by_token (hcore : Reachable env core) (direct : Bool) (sessionId : UInt16)
    (t : Token) (answer : Answer) :
    (sessionOf core t = none →
      dispatchFrame env direct sessionId (answer.frame t) core = (.done .cont, core)) ∧
    (∀ sent, sessionOf core t = some sent →
      Ends (dispatchFrame env direct sessionId (answer.frame t)) core fun o core' =>
        Uses t answer core core' ∧ (o = .done .cont → Resolved t core core')) :=
  matched_of_live env (live_of_reachable env hcore) direct sessionId t answer

section Samples

def requested : LooperCore Unit :=
  (Op.exec (Env.idle postcard) (.syncRequest ⟨1, [7]⟩) (LooperCore.new () ⟨1⟩)).2

theorem reachable_requested : Reachable (Env.idle postcard) requested :=
  .step (.syncRequest ⟨1, [7]⟩) (reachable_new _ () ⟨1⟩) trivial rfl

theorem answers_matched_by_token_requested :
    sessionOf requested 0 = some 1 ∧
      Ends (dispatchFrame (Env.idle postcard) false 1 (.reply 0 [9])) requested fun o core' =>
        o = .done .cont → sessionOf core' 0 = none := by
  refine ⟨rfl, ?_⟩
  have h := (answers_matched_by_token (Env.idle postcard) reachable_requested false 1 0
    (.reply [9])).2 1 rfl
  apply h.mono
  rintro o core' ⟨-, hresolved⟩ hcont
  rw [sessionOf, (hresolved hcont).activeSession]
  rfl

/-- A reply with its token on session 2 does the same. -/
theorem answered_on_another_session :
    Reachable (Env.idle postcard) requested ∧ sessionOf requested 0 = some 1 ∧
      Pending requested 0 ∧
      let result := dispatchReply (Env.idle postcard) 2 0 [9] requested
      result.1 = .done .cont ∧ Event.called (.onReply 0 [9]) ∈ result.2.trace ∧
        ¬ Pending result.2 0 ∧ sessionOf result.2 0 = none :=
  ⟨reachable_requested, rfl, by decide, rfl, by decide, by decide, rfl⟩

end Samples

end Pane.ReplyScope
