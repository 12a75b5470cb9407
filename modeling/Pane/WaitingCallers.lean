import Pane.EntrySteps
import Pane.ReplyScope

namespace Pane.WaitingCallers

open Pane.HashTable Pane.Messages Pane.Callbacks Pane.Unwinding Pane.LooperState
open Pane.CoreDispatch Pane.CoreRequest Pane.CoreRuns Pane.LooperPlan Pane.RequestLedger
open Pane.RequestSafety Pane.EntrySteps Pane.ReplyScope Pane.PostcardFormat
open Pane.CoreSteps (nextToken)

inductive SendAndWaitError
  | timeout
  | disconnected
  | failed
  | serializationError
  | cancelled

/-- How far the request of a call has come. It is dropped when the caller does not
submit it, or when the looper ends before it takes it. -/
inductive Stage
  | unsent
  | submitted
  | taken (token : Token)
  | dropped

/-- A looper thread and a thread in `send_and_wait`. The core is there as long as
the looper is running; the result is that of the call. -/
structure Waiting (H R : Type) where
  core : LooperCore H
  running : Bool
  stage : Stage
  result : Option (Except SendAndWaitError R)

variable {H R : Type} {env : Env H} {req : SyncRequest} {decode : Bytes → Option R}
  {core core' : LooperCore H} {s s' : Waiting H R}

namespace Waiting

def start (core : LooperCore H) : Waiting H R := ⟨core, true, .unsent, none⟩

/-- The senders of the oneshot are gone without a result: with the request, with
its entry, or with the whole looper. -/
def HungUp (s : Waiting H R) : Prop :=
  s.stage = .dropped ∨ s.running = false ∨ ∃ token, s.stage = .taken token ∧
    (.cancelled token ∈ s.core.trace ∨ .discarded token ∈ s.core.trace)

def HasEntry (s : Waiting H R) : Prop :=
  s.running = true ∧ ∃ token, s.stage = .taken token ∧
    (Pending s.core token ∨ PendingAsync s.core token)

def IsOutstanding (s : Waiting H R) : Prop :=
  s.running = true ∧ ∃ token, s.stage = .taken token ∧ (sessionOf s.core token).isSome

end Waiting

/-- One of the two threads makes a step. The closures of the entry pass their
argument on to the caller; the timeout may fire at any moment of the wait. -/
inductive Turn (req : SyncRequest) (decode : Bytes → Option R) :
    Waiting H R → Waiting H R → Prop
  | looper {s : Waiting H R} {core' : LooperCore H} (hrunning : s.running = true)
    (hstep : EntryStep s.core core') : Turn req decode s { s with core := core' }
  | take {s : Waiting H R} (hrunning : s.running = true) (hstage : s.stage = .submitted) :
    Turn req decode s
      { s with
        core := inserted req.sessionId SyncRequest.entry s.core
        stage := .taken (nextToken s.core) }
  | drop {s : Waiting H R} (hstage : s.stage = .submitted) :
    Turn req decode s { s with stage := .dropped }
  | quit {s : Waiting H R} : Turn req decode s { s with running := false }
  | unserializable {s : Waiting H R} (hresult : s.result = none) (hstage : s.stage = .unsent) :
    Turn req decode s { s with stage := .dropped, result := some (.error .serializationError) }
  | submit {s : Waiting H R} (hresult : s.result = none) (hstage : s.stage = .unsent) :
    Turn req decode s { s with stage := .submitted }
  | refused {s : Waiting H R} (hresult : s.result = none) (hstage : s.stage = .unsent) :
    Turn req decode s { s with stage := .dropped, result := some (.error .disconnected) }
  | replied {s : Waiting H R} (hresult : s.result = none) {token : Token} {bytes : Bytes}
    (hstage : s.stage = .taken token) (hsent : .called (.onReply token bytes) ∈ s.core.trace) :
    Turn req decode s
      { s with
        result := some (match decode bytes with
          | some reply => .ok reply
          | none => .error .serializationError) }
  | failed {s : Waiting H R} (hresult : s.result = none) {token : Token}
    (hstage : s.stage = .taken token) (hsent : .called (.onFailed token) ∈ s.core.trace) :
    Turn req decode s { s with result := some (.error .failed) }
  | disconnected {s : Waiting H R} (hresult : s.result = none) (hhung : s.HungUp) :
    Turn req decode s { s with result := some (.error .disconnected) }
  | timeout {s : Waiting H R} (hresult : s.result = none) (hstage : s.stage ≠ .unsent) :
    Turn req decode s { s with result := some (.error .timeout) }

abbrev Turns (req : SyncRequest) (decode : Bytes → Option R) :
    Waiting H R → Waiting H R → Prop := Relation.ReflTransGen (Turn req decode)

section Code

theorem turns_course (hrunning : s.running = true) (h : Course s.core core') :
    Turns req decode s { s with core := core' } := by
  induction h with
  | refl => exact .refl
  | @tail core₁ core₂ _ hstep ih =>
    exact ih.tail (.looper (s := { s with core := core₁ }) hrunning hstep)

theorem turns_act (act : Act) (hrunning : s.running = true) :
    Ends (act.exec env) s.core fun _ core' => Turns req decode s { s with core := core' } :=
  ((paces_act act).always s.core).mono fun _ _ h => turns_course hrunning h

theorem turns_syncRequest (hrunning : s.running = true) (hstage : s.stage = .submitted) :
    Ends (processSyncRequest env req) s.core fun _ core' =>
      Turns req decode s { s with core := core', stage := .taken (nextToken s.core) } := by
  have htake : Turn req decode s
      { s with
        core := inserted req.sessionId SyncRequest.entry s.core
        stage := .taken (nextToken s.core) } := .take hrunning hstage
  refine Ends.bind (Ends.congr (Ends.pure ?_) (insert_apply req.sessionId _ s.core))
  apply ((paces_sendSyncRequest req (nextToken s.core)).always _).mono
  intro _ core' h
  exact .head htake (turns_course hrunning h)

end Code

namespace Waiting

/-- The looper is done with the request: it was dropped, the looper has ended, or an
event has used up its entry. -/
def Finished (s : Waiting H R) : Prop :=
  s.stage = .dropped ∨ s.running = false ∨ ∃ token e, s.stage = .taken token ∧
    e ∈ s.core.trace ∧ spent e = some token

end Waiting

theorem tidy_turn (h : Turn req decode s s') (htidy : Tidy s.core) : Tidy s'.core := by
  cases h with
  | looper _ hstep => exact tidy_step hstep htidy
  | take => exact tidy_step (.install _ _ rfl) htidy
  | _ => exact htidy

theorem finished_turn (h : Turn req decode s s') (htidy : Tidy s.core) (hs : s.Finished) :
    s'.Finished := by
  have hleft : s.stage ≠ .dropped → (∀ token, s.stage ≠ .taken token) → s.running = false := by
    intro hdropped htaken
    obtain hs | hs | ⟨token, e, hs, -⟩ := hs
    · exact absurd hs hdropped
    · exact hs
    · exact absurd hs (htaken token)
  cases h with
  | @looper core' hrunning hstep =>
    obtain hs | hs | ⟨token, e, hs, he, hspent⟩ := hs
    · exact .inl hs
    · exact .inr (.inl hs)
    · obtain ⟨es, haccounts⟩ := hstep.accounts htidy
      refine .inr (.inr ⟨token, e, hs, ?_, hspent⟩)
      rw [haccounts.trace]
      exact List.mem_append_left es he
  | take hrunning hstage =>
    rw [hleft (by simp [hstage]) (by simp [hstage])] at hrunning
    cases hrunning
  | drop => exact .inl rfl
  | quit => exact .inr (.inl rfl)
  | unserializable => exact .inl rfl
  | submit _ hstage => exact .inr (.inl (hleft (by simp [hstage]) (by simp [hstage])))
  | refused => exact .inl rfl
  | replied | failed | disconnected | timeout => exact hs

structure Sound (s : Waiting H R) : Prop where
  tidy : Tidy s.core
  submitted : s.result ≠ none → s.stage = .unsent → s.running = false
  installed : ∀ token, s.stage = .taken token → ∃ e ∈ s.core.trace, made e = some token
  returned : ∀ r, s.result = some r → r ≠ .error .timeout → s.Finished

theorem submitted_turn (h : Turn req decode s s') (hs : Sound s) (hresult : s'.result ≠ none)
    (hunsent : s'.stage = .unsent) : s'.running = false := by
  cases h with
  | looper => exact hs.submitted hresult hunsent
  | quit => rfl
  | take | drop | unserializable | submit | refused => cases hunsent
  | replied _ hstage | failed _ hstage =>
    rw [hstage] at hunsent
    cases hunsent
  | disconnected _ hhung =>
    obtain hstage | hrunning | ⟨token, hstage, -⟩ := hhung
    · cases hstage.symm.trans hunsent
    · exact hrunning
    · cases hstage.symm.trans hunsent
  | timeout _ hstage => exact absurd hunsent hstage

theorem installed_turn (h : Turn req decode s s') (hs : Sound s) {token : Token}
    (hstage : s'.stage = .taken token) : ∃ e ∈ s'.core.trace, made e = some token := by
  cases h with
  | looper _ hstep =>
    obtain ⟨es, haccounts⟩ := hstep.accounts hs.tidy
    obtain ⟨e, he, hmade⟩ := hs.installed token hstage
    rw [haccounts.trace]
    exact ⟨e, List.mem_append_left es he, hmade⟩
  | take =>
    cases hstage
    exact ⟨_, List.mem_append_right _ (List.mem_singleton_self _), rfl⟩
  | drop | unserializable | submit | refused => cases hstage
  | quit | replied | failed | disconnected | timeout => exact hs.installed token hstage

theorem returned_turn (h : Turn req decode s s') (hs : Sound s) {r : Except SendAndWaitError R}
    (hr : s'.result = some r) (htimeout : r ≠ .error .timeout) : s'.Finished := by
  have hkept (hresult : s.result = some r) : s'.Finished :=
    finished_turn h hs.tidy (hs.returned r hresult htimeout)
  cases h with
  | looper | take | drop | quit | submit => exact hkept hr
  | unserializable => exact .inl rfl
  | refused => exact .inl rfl
  | replied _ hstage hsent => exact .inr (.inr ⟨_, _, hstage, hsent, rfl⟩)
  | failed _ hstage hsent => exact .inr (.inr ⟨_, _, hstage, hsent, rfl⟩)
  | disconnected _ hhung =>
    obtain hstage | hrunning | ⟨token, hstage, hevent | hevent⟩ := hhung
    · exact .inl hstage
    · exact .inr (.inl hrunning)
    · exact .inr (.inr ⟨token, _, hstage, hevent, rfl⟩)
    · exact .inr (.inr ⟨token, _, hstage, hevent, rfl⟩)
  | timeout => exact absurd (Option.some.inj hr).symm htimeout

theorem sound_turn (h : Turn req decode s s') (hs : Sound s) : Sound s' :=
  ⟨tidy_turn h hs.tidy, submitted_turn h hs, fun _ => installed_turn h hs,
    fun _ => returned_turn h hs⟩

theorem sound_start (hcore : Tidy core) : Sound (.start core : Waiting H R) where
  tidy := hcore
  submitted hresult := absurd rfl hresult
  installed _ hstage := by cases hstage
  returned _ hresult := by cases hresult

theorem sound_turns (h : Turns req decode s s') (hs : Sound s) : Sound s' := by
  induction h with
  | refl => exact hs
  | tail _ hturn ih => exact sound_turn hturn ih

theorem finished_turns (h : Turns req decode s s') (htidy : Tidy s.core) (hs : s.Finished) :
    Tidy s'.core ∧ s'.Finished := by
  induction h with
  | refl => exact ⟨htidy, hs⟩
  | tail _ hturn ih => exact ⟨tidy_turn hturn ih.1, finished_turn hturn ih.1 ih.2⟩

section Tokens

variable {t : Token}

/-- The token is an old one, and the correlator does not have it. -/
def Forgotten (t : Token) (core : LooperCore H) : Prop :=
  t < nextToken core ∧ ¬ (sessionOf core t).isSome

theorem Forgotten.allocated (h : Forgotten t core) (sessionId : UInt16)
    (hcore : core'.activeSession = (core.activeSession.allocateToken sessionId).2) :
    Forgotten t core' := by
  have hnext : nextToken core' = nextToken core + 1 := by
    rw [nextToken, hcore]
    rfl
  refine ⟨hnext ▸ Nat.lt_succ_of_lt h.1, fun hsome => ?_⟩
  rw [sessionOf, hcore, isSome_sessionOf_allocateToken] at hsome
  obtain ht | hsome := hsome
  · exact Nat.ne_of_lt h.1 ht
  · exact h.2 hsome

theorem Forgotten.step (hstep : EntryStep core core') (h : Forgotten t core) :
    Forgotten t core' := by
  cases hstep with
  | calm es hes htrace hdispatch hpeer hfewer =>
    refine ⟨Nat.lt_of_lt_of_le h.1 hfewer.next, fun hsome => h.2 ?_⟩
    obtain ⟨sessionId, hsession⟩ := Option.isSome_iff_exists.mp hsome
    exact Option.isSome_iff_exists.mpr ⟨sessionId, hfewer.sessions t sessionId hsession⟩
  | install sessionId entry hcore => exact h.allocated sessionId (hcore ▸ rfl)
  | installAsync sessionId futureDropped hcore => exact h.allocated sessionId (hcore ▸ rfl)
  | spend u e hpending he hcore => exact hcore ▸ h
  | spendAsync u e hpending he hcore => exact hcore ▸ h
  | clear hcore => exact hcore ▸ h

theorem taken_turn (h : Turn req decode s s') (hs : s.Finished) (ht : s'.stage = .taken t)
    (hrunning : s'.running = true) : s.stage = .taken t ∧ s.running = true := by
  cases h with
  | take hrunning hstage =>
    obtain hs | hs | ⟨token, e, hs, -⟩ := hs
    · cases hs.symm.trans hstage
    · cases hs.symm.trans hrunning
    · cases hs.symm.trans hstage
  | drop | unserializable | submit | refused => cases ht
  | quit => cases hrunning
  | looper | replied | failed | disconnected | timeout => exact ⟨ht, hrunning⟩

theorem forgotten_turn (h : Turn req decode s s') (hf : Forgotten t s.core) :
    Forgotten t s'.core := by
  cases h with
  | looper _ hstep => exact hf.step hstep
  | take => exact hf.step (.install _ _ rfl)
  | _ => exact hf

end Tokens

theorem not_hasEntry_of_finished (htidy : Tidy s.core) (h : s.Finished) : ¬ s.HasEntry := by
  rintro ⟨hrunning, token, hstage, hentry⟩
  obtain hs | hs | ⟨token', e, hs, he, hspent⟩ := h
  · cases hs.symm.trans hstage
  · cases hs.symm.trans hrunning
  · cases hs.symm.trans hstage
    obtain ⟨-, hpending, hasync, -⟩ := htidy.gone he hspent
    exact hentry.elim hpending hasync

theorem not_isOutstanding_turn (h : Turn req decode s s') (htidy : Tidy s.core) (hs : s.Finished)
    (hout : ¬ s.IsOutstanding) : ¬ s'.IsOutstanding := by
  rintro ⟨hrunning, token, hstage, hsome⟩
  obtain ⟨hstage', hrunning'⟩ := taken_turn h hs hstage hrunning
  obtain hs | hs | ⟨token', e, hs, he, hspent⟩ := hs
  · cases hs.symm.trans hstage'
  · cases hs.symm.trans hrunning'
  · cases hs.symm.trans hstage'
    have hforgotten : Forgotten token s.core :=
      ⟨(htidy.gone he hspent).2.2.2, fun hsome => hout ⟨hrunning', token, hstage', hsome⟩⟩
    exact (forgotten_turn h hforgotten).2 hsome

theorem not_isOutstanding_turns (h : Turns req decode s s') (htidy : Tidy s.core)
    (hs : s.Finished) (hout : ¬ s.IsOutstanding) : ¬ s'.IsOutstanding := by
  induction h with
  | refl => exact hout
  | tail hturns hturn ih =>
    obtain ⟨htidy', hs'⟩ := finished_turns hturns htidy hs
    exact not_isOutstanding_turn hturn htidy' hs' ih

/-- A call that has returned while its request was not finished is one whose entry is
there or is still to come. -/
theorem hasEntry_of_not_finished (hs : Sound s) (hresult : s.result ≠ none) (h : ¬ s.Finished) :
    ∃ s', Turns req decode s s' ∧ s'.HasEntry := by
  have hrunning : s.running = true := by
    cases hrunning : s.running with
    | true => rfl
    | false => exact absurd (.inr (.inl hrunning)) h
  cases hstage : s.stage with
  | unsent =>
    rw [hs.submitted hresult hstage] at hrunning
    cases hrunning
  | dropped => exact absurd (.inl hstage) h
  | submitted =>
    refine ⟨_, .single (.take hrunning hstage), hrunning, nextToken s.core, rfl, .inl ?_⟩
    exact (AList.mem_insert s.core.dispatch.entries).mpr (.inl rfl)
  | taken token =>
    -- installed and not used up: the entry is in one of the two tables
    obtain ⟨e, he, hmade⟩ := hs.installed token hstage
    have hmade' : 0 < s.core.trace.countP (makes token) :=
      List.countP_pos_iff.mpr ⟨e, he, by simpa [makes] using hmade⟩
    have hunspent : s.core.trace.countP (spends token) = 0 := by
      rw [List.countP_eq_zero]
      intro e he hspent
      exact h (.inr (.inr ⟨token, e, hstage, he, by simpa [spends] using hspent⟩))
    have hbalance := hs.tidy.balance token
    refine ⟨s, .refl, hrunning, token, hstage, ?_⟩
    by_contra hnone
    rw [not_or] at hnone
    rw [hunspent, owed, if_neg hnone.1, if_neg hnone.2] at hbalance
    omega

theorem not_isOutstanding_of_finished (hcore : Reached env s.core) (h : s.Finished) :
    ¬ s.IsOutstanding := by
  rintro ⟨hrunning, token, hstage, hsome⟩
  have hentry := not_hasEntry_of_finished (tidy_of_reached hcore) h
  rw [(live_of_reached hcore).books.agree] at hsome
  obtain hpending | hasync | hfiring := hsome
  · exact hentry ⟨hrunning, token, hstage, .inl hpending⟩
  · exact hentry ⟨hrunning, token, hstage, .inr hasync⟩
  · cases hfiring

/-- When a call that has returned leaves nothing behind, in any interleaving: exactly
if the looper was done with the request at the return and its correlator had let go
of the token. Only a timeout can fire before the looper is done with the request,
and between two operations of the looper that alone is what matters. -/
theorem send_and_wait_leaves_nothing_iff (hcore : Reached env core)
    {r : Except SendAndWaitError R} (hrun : Turns req decode (.start core) s)
    (hresult : s.result = some r) :
    (r ≠ .error .timeout → s.Finished) ∧
    ((∀ s', Turns req decode s s' → ¬ s'.HasEntry ∧ ¬ s'.IsOutstanding) ↔
      s.Finished ∧ ¬ s.IsOutstanding) ∧
    (Reached env s.core →
      ((∀ s', Turns req decode s s' → ¬ s'.HasEntry ∧ ¬ s'.IsOutstanding) ↔ s.Finished)) := by
  have hsound : Sound s := sound_turns hrun (sound_start (tidy_of_reached hcore))
  have hiff : (∀ s', Turns req decode s s' → ¬ s'.HasEntry ∧ ¬ s'.IsOutstanding) ↔
      s.Finished ∧ ¬ s.IsOutstanding := by
    constructor
    · intro hnothing
      refine ⟨?_, (hnothing s .refl).2⟩
      by_contra hunfinished
      obtain ⟨s', hlater, hentry⟩ : ∃ s', Turns req decode s s' ∧ s'.HasEntry :=
        hasEntry_of_not_finished hsound (by simp [hresult]) hunfinished
      exact (hnothing s' hlater).1 hentry
    · rintro ⟨hfinished, hout⟩ s' hlater
      obtain ⟨htidy, hfinished'⟩ := finished_turns hlater hsound.tidy hfinished
      exact ⟨not_hasEntry_of_finished htidy hfinished',
        not_isOutstanding_turns hlater hsound.tidy hfinished hout⟩
  refine ⟨hsound.returned r hresult, hiff, fun hreached => hiff.trans ?_⟩
  exact ⟨And.left, fun hfinished => ⟨hfinished, not_isOutstanding_of_finished hreached hfinished⟩⟩

section Samples

def sampleRequest : SyncRequest := ⟨1, [7]⟩

def submitted (result : Option (Except SendAndWaitError Bytes)) : Waiting Unit Bytes :=
  ⟨LooperCore.new () ⟨1⟩, true, .submitted, result⟩

def blocked (result : Option (Except SendAndWaitError Bytes)) : Waiting Unit Bytes :=
  ⟨requested, true, .taken 0, result⟩

theorem turns_submitted :
    Turns sampleRequest some (.start (LooperCore.new () ⟨1⟩)) (submitted none) :=
  .single (.submit rfl rfl)

theorem turns_blocked (result : Option (Except SendAndWaitError Bytes)) :
    Turns sampleRequest some (submitted result) (blocked result) := by
  have htaken : Ends (processSyncRequest (Env.idle postcard) sampleRequest) (submitted result).core
      fun _ core' => Turns sampleRequest some (submitted result) ⟨core', true, .taken 0, result⟩ :=
    turns_syncRequest rfl rfl
  exact htaken

def fired : LooperCore Unit := (fireReply (Env.idle postcard) 0 [9] requested).2

theorem turns_fired : Turns sampleRequest some (blocked none)
    ⟨fired, true, .taken 0, some (.ok [9])⟩ := by
  have hcourse : Course requested fired :=
    (paces_fire 0 (.onReply 0 [9]) rfl _ rfl).always requested
  have hlooper : Turns sampleRequest some (blocked none) ⟨fired, true, .taken 0, none⟩ :=
    turns_course rfl hcourse
  exact hlooper.tail (.replied rfl rfl (by decide))

theorem send_and_wait_leaves_nothing_late :
    let late (result : Option (Except SendAndWaitError Bytes)) : Waiting Unit Bytes :=
      ⟨(dispatchReply (Env.idle postcard) 1 0 [9] requested).2, true, .taken 0, result⟩
    Turns sampleRequest some (.start (LooperCore.new () ⟨1⟩)) (late (some (.error .timeout))) ∧
      ∀ s', Turns sampleRequest some (late (some (.error .timeout))) s' →
        ¬ s'.HasEntry ∧ ¬ s'.IsOutstanding := by
  intro late
  have hpaces : Paces (Op.exec (Env.idle postcard) (.service false 1 (.reply 0 [9]))) :=
    paces_exec _
  have hreply : Course requested (late none).core := hpaces.always requested
  have hlate : Turns sampleRequest some (.start (LooperCore.new () ⟨1⟩))
      (late (some (.error .timeout))) :=
    ((turns_submitted.trans (turns_blocked none)).trans (turns_course rfl hreply)).tail
      (.timeout rfl (by simp [blocked]))
  have hreached : Reached (Env.idle postcard) (late none).core :=
    reached_next (.service false 1 (.reply 0 [9])) (reached_of_reachable reachable_requested) rfl
  have hnew : Reached (Env.idle postcard) (LooperCore.new () ⟨1⟩) :=
    reached_new _ () ⟨1⟩ 0
  obtain ⟨-, -, hbetween⟩ := send_and_wait_leaves_nothing_iff hnew hlate rfl
  refine ⟨hlate, (hbetween hreached).mpr (.inr (.inr ⟨0, .called (.onReply 0 [9]), rfl, ?_, rfl⟩))⟩
  decide

/-- A call that times out leaves its entry and its token in the tables, whether the
looper has taken the request before or takes it only afterwards. A call that gets
its reply may return while the correlator still has its token. -/
theorem timed_out_call_left_behind :
    let start : Waiting Unit Bytes := .start (LooperCore.new () ⟨1⟩)
    let timedOut : Option (Except SendAndWaitError Bytes) := some (.error .timeout)
    Turns sampleRequest some start (blocked none) ∧
    Turn sampleRequest some (blocked none) (blocked timedOut) ∧
    Turns sampleRequest some start (submitted timedOut) ∧
    Turns sampleRequest some (submitted timedOut) (blocked timedOut) ∧
    Reachable (Env.idle postcard) (blocked timedOut).core ∧
    (blocked timedOut).HasEntry ∧ (blocked timedOut).IsOutstanding ∧
    Turns sampleRequest some start ⟨fired, true, .taken 0, some (.ok [9])⟩ ∧
    (sessionOf fired 0).isSome := by
  intro start timedOut
  have hblocked := turns_submitted.trans (turns_blocked none)
  exact ⟨hblocked, .timeout rfl nofun, turns_submitted.tail (.timeout rfl nofun),
    turns_blocked timedOut, reachable_requested, ⟨rfl, 0, rfl, .inl (by decide)⟩,
    ⟨rfl, 0, rfl, rfl⟩, hblocked.trans turns_fired, rfl⟩

end Samples

end Pane.WaitingCallers
