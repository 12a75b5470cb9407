import Pane.CoreSteps
import Pane.EventFilters
import Pane.LiveMoves
import Pane.PostcardFormat

namespace Pane.RequestCap

open Pane.HashTable Pane.Messages Pane.Correlator Pane.Callbacks Pane.Unwinding Pane.LooperState
open Pane.CallbackEffects Pane.CoreDispatch Pane.CoreRequest Pane.Looper Pane.CoreRuns
open Pane.RequestLedger Pane.Cascades Pane.LiveCore Pane.Resolutions Pane.RequestSafety
open Pane.LooperSafety Pane.CoreMoves Pane.CoreSteps Pane.LooperPlan Pane.ContextEffects
open Pane.LiveMoves Pane.PostcardFormat
open Pane.EventFilters (Grown grown_act)

variable {H : Type} (env : Env H) {core core' : LooperCore H} {call : Call} {t : Token} {k : UInt16}

def installedToken : Event → Option Token
  | .installed t _ => some t
  | _ => none

def unanswered (trace : List Event) : List Token :=
  (trace.filterMap installedToken).filter fun t => !trace.any (settles t)

section Histories

variable {trace es : List Event}

theorem unanswered_append (hes : ∀ e ∈ es, installedToken e = none) :
    (unanswered (trace ++ es)).length ≤ (unanswered trace).length := by
  have hnone : es.filterMap installedToken = [] := by
    rw [List.filterMap_eq_nil_iff]
    exact hes
  rw [unanswered, unanswered, List.filterMap_append, hnone, List.append_nil,
    ← List.countP_eq_length_filter, ← List.countP_eq_length_filter]
  apply List.countP_mono_left
  intro t _ ht
  simp only [List.any_append, Bool.not_or, Bool.and_eq_true] at ht
  exact ht.1

theorem unanswered_installed (sessionId : UInt16) (ht : trace.any (settles t) = false) :
    unanswered (trace ++ [.installed t sessionId]) = unanswered trace ++ [t] := by
  have hany (u : Token) :
      (trace ++ [Event.installed t sessionId]).any (settles u) = trace.any (settles u) := by
    rw [List.any_append]
    exact Bool.or_false _
  have hone : [Event.installed t sessionId].filterMap installedToken = [t] := rfl
  simp only [unanswered, hany, List.filterMap_append, hone, List.filter_append]
  simp [ht]

theorem count_installedToken : (trace.filterMap installedToken).count t = trace.countP (installs t) := by
  have hinstalls : installs t = fun e => installedToken e == some t := by
    funext e
    cases e with
    | installed u s => simp [installedToken, installs, beq_eq_decide]
    | _ => rfl
  rw [List.count_filterMap, hinstalls]

theorem mem_unanswered :
    t ∈ unanswered trace ↔ 0 < trace.countP (installs t) ∧ trace.countP (settles t) = 0 := by
  rw [unanswered, List.mem_filter, ← count_installedToken, List.count_pos_iff, Bool.not_eq_true',
    List.any_eq_false, List.countP_eq_zero]

theorem mem_unanswered_iff (h : Ledger core) : t ∈ unanswered core.trace ↔ Pending core t := by
  have hsettled := h.settled t
  have hinstalled := h.installed t
  rw [mem_unanswered]
  by_cases hp : Pending core t
  · rw [if_pos hp] at hsettled
    have hone := countP_installs_of_pending h hp
    exact ⟨fun _ => hp, fun _ => by omega⟩
  · rw [if_neg hp] at hsettled
    exact ⟨fun ht => by omega, fun h => absurd h hp⟩

theorem nodup_unanswered (h : Ledger core) : (unanswered core.trace).Nodup := by
  apply List.Nodup.filter
  rw [List.nodup_iff_count_le_one]
  intro t
  rw [count_installedToken]
  exact h.installed_le_one t

theorem unanswered_nextToken (h : Ledger core) (sessionId : UInt16) :
    unanswered (core.trace ++ [.installed (nextToken core) sessionId]) =
      unanswered core.trace ++ [nextToken core] := by
  apply unanswered_installed
  have hsettled := h.settled (nextToken core)
  have hnew : core.trace.countP (installs (nextToken core)) = 0 := (countP_nextToken h).1
  rw [List.any_eq_false]
  exact List.countP_eq_zero.mp (by omega)

theorem unanswered_perm (h : Books none core) (hasync : core.dispatch.asyncEntries = ∅) :
    (unanswered core.trace).Perm core.activeSession.correlator.tokenSessions.keys := by
  rw [List.perm_ext_iff_of_nodup (nodup_unanswered h.toLedger) (AList.keys_nodup _)]
  intro t
  have hno : ¬ PendingAsync core t := by simp [PendingAsync, hasync]
  rw [mem_unanswered_iff h.toLedger, ← AList.mem_keys, mem_tokenSessions, h.agree]
  simp [hno]

end Histories

structure Sound (k : UInt16) (a : ActiveSession) : Prop where
  cap : a.correlator.requestCap = k
  exact : a.correlator.outstandingRequests = a.correlator.tokenSessions.keys.length
  bound : a.correlator.outstandingRequests ≤ k.toNat

section Sessions

variable {a : ActiveSession}

theorem Sound.recordResolution (h : Sound k a) (ht : t ∈ a.correlator.tokenSessions) :
    Sound k (a.recordResolution t) :=
  ⟨h.cap, ActiveSession.Counted.recordResolution h.exact ht,
    Nat.le_trans (Nat.sub_le _ _) h.bound⟩

theorem Sound.cascadeConnectionFailure (h : Sound k a) (order : TokenOrder) :
    Sound k (a.cascadeConnectionFailure order).2 :=
  ⟨h.cap, rfl, Nat.zero_le _⟩

theorem Sound.allocateToken (h : Sound k a) (hk : 0 < k) (hroom : a.wouldExceedCap = false)
    (sessionId : UInt16) : Sound k (a.allocateToken sessionId).2 := by
  have hlt : a.correlator.outstandingRequests < k.toNat := by
    simpa [ActiveSession.wouldExceedCap, RequestCorrelator.wouldExceedCap, h.cap, hk] using hroom
  exact ⟨h.cap, ActiveSession.Counted.allocateToken h.exact sessionId, hlt⟩

end Sessions

structure Quota (k : UInt16) (core : LooperCore H) : Prop where
  session : Sound k core.activeSession
  async : core.dispatch.asyncEntries = ∅
  spare : ∀ pre, pre <+: core.trace → (unanswered pre).length ≤ k.toNat

def NoAsync (trace : List Event) : Prop := ∀ t s, Event.installedAsync t s ∉ trace

def Within (k : UInt16) (core : LooperCore H) : Prop := NoAsync core.trace → Quota k core

structure Eases (core core' : LooperCore H) : Prop where
  session : ∀ k, Sound k core.activeSession → Sound k core'.activeSession
  async : core.dispatch.asyncEntries = ∅ → core'.dispatch.asyncEntries = ∅
  trace : ∃ es, core'.trace = core.trace ++ es ∧ ∀ e ∈ es, installedToken e = none

theorem NoAsync.before {pre trace : List Event} (h : NoAsync trace) (hpre : pre <+: trace) :
    NoAsync pre := fun t s hmem => h t s (hpre.subset hmem)

theorem within_of_eases (h : Eases core core') (hwithin : Within k core) : Within k core' := by
  intro hasync
  obtain ⟨es, htrace, hes⟩ := h.trace
  have hquota := hwithin (hasync.before (htrace ▸ List.prefix_append _ es))
  refine ⟨h.session k hquota.session, h.async hquota.async, fun pre hpre => ?_⟩
  rw [htrace] at hpre
  obtain hpre | ⟨es', rfl⟩ := List.prefix_or_prefix_of_prefix hpre (List.prefix_append _ _)
  · exact hquota.spare pre hpre
  · have hes' : ∀ e ∈ es', installedToken e = none := fun e he =>
      hes e (((List.prefix_append_right_inj _).mp hpre).subset he)
    exact Nat.le_trans (unanswered_append hes') (hquota.spare _ (List.prefix_refl _))

theorem Eases.silent (hsession : core'.activeSession = core.activeSession)
    (hdispatch : core'.dispatch.asyncEntries = core.dispatch.asyncEntries)
    (htrace : core'.trace = core.trace) : Eases core core' :=
  ⟨fun _ h => hsession ▸ h, fun h => hdispatch.trans h, [], by simpa using htrace, by simp⟩

theorem eases_of_aside (h : Aside core core') : Eases core core' := by
  obtain ⟨es, htrace, hes⟩ := h.trace
  refine ⟨fun _ hsound => h.activeSession ▸ hsound, fun hasync => ?_, es, htrace, fun e he => ?_⟩
  · rw [h.dispatch]
    exact hasync
  · cases e with
    | installed t s => exact absurd rfl (hes _ he t s)
    | _ => rfl

theorem eases_removeAsync (key : PeerScope × Token) (core : LooperCore H) :
    Eases core (removeAsync key core) := by
  refine ⟨fun _ h => h, fun h => ?_, [], (List.append_nil _).symm, by simp⟩
  show core.dispatch.asyncEntries.erase key = ∅
  rw [h]
  rfl

section Requests

variable (hk : 0 < k)

include hk

theorem within_inserted (hlive : Live core) (hwithin : Within k core)
    (hroom : core.activeSession.wouldExceedCap = false) (sessionId : UInt16)
    (entry : DispatchEntry H) : Within k (inserted sessionId entry core) := by
  intro hasync
  have hquota := hwithin (hasync.before (List.prefix_append _ _))
  have hsession := hquota.session.allocateToken hk hroom sessionId
  refine ⟨hsession, hquota.async, fun pre hpre => ?_⟩
  obtain rfl | hpre := List.prefix_concat_iff.mp hpre
  · have hlength := (unanswered_perm hlive.books hquota.async).length_eq
    have hnew := unanswered_nextToken hlive.books.toLedger sessionId
    rw [nextToken] at hnew
    rw [hnew, List.length_append, hlength, ← hquota.session.exact]
    exact hsession.bound
  · exact hquota.spare pre hpre

theorem upkeep_within :
    Upkeep (fun core : LooperCore H => core.activeSession.wouldExceedCap = false) (Within k) where
  aside h := within_of_eases (eases_of_aside h)
  spend _ := within_of_eases (.silent rfl rfl rfl)
  spendAsync key := within_of_eases (eases_removeAsync key _)
  resolve _ _ ht := within_of_eases ⟨fun _ hsound => hsound.recordResolution ht, fun h => h, [],
    (List.append_nil _).symm, by simp⟩
  spare h := h
  insert sessionId entry hlive hroom hcore := within_inserted hk hlive hcore hroom sessionId entry
  insertAsync _ _ _ _ hasync := absurd (List.mem_append_right _ List.mem_cons_self) (hasync _ _)

theorem saves_runDestruction (reason : ExitReason) :
    Moves (Saves (Within k)) (Saves (Within k)) (runDestruction env reason) := by
  have hease {f : LooperCore H → LooperCore H} (h : ∀ core, Eases core (f core)) :
      Moves (Saves (Within k)) (Saves (Within k)) (Code.modify f) :=
    Moves.modify fun core => within_of_eases (h core)
  refine Moves.bind (hease fun _ => .silent rfl rfl rfl) fun _ => ?_
  refine Moves.bind (saves_cascade (upkeep_within hk) fun order core => within_of_eases ?_)
    fun _ => ?_
  · exact ⟨fun _ h => h.cascadeConnectionFailure order, fun h => h, [], (List.append_nil _).symm,
      by simp⟩
  refine Moves.bind (hease fun core => ?_) fun _ => hease fun _ => .silent rfl rfl rfl
  refine ⟨fun _ h => h, fun _ => rfl, _, rfl, ?_⟩
  intro e he
  obtain ⟨key, -, rfl⟩ := List.mem_map.mp he
  rfl

def Roomy (v : Act × LooperCore H) : Prop :=
  ∀ req, v.1 = .op (.syncRequest req) → v.2.activeSession.wouldExceedCap = false

theorem within_act (act : Act) (hlive : Live core) (hwithin : Within k core)
    (hroom : Roomy (act, core)) : Ends (act.exec env) core fun _ core' => Within k core' := by
  have hdestroy := saves_runDestruction env hk
  have hclosed : Moves (Saves (Within k)) (Saves (Within k)) (channelClosed env) :=
    moves_channelClosed hdestroy (saves_invoke (upkeep_within hk) _ _)
      fun _ => within_of_eases (.silent rfl rfl rfl)
  exact saved_act (upkeep_within hk) hdestroy act (Moves.saved hclosed hwithin) hlive hwithin hroom

end Requests

def capped (handler : H) (primaryConnection : PeerScope) (k : UInt16) : LooperCore H :=
  { LooperCore.new handler primaryConnection with
    activeSession := ActiveSession.new primaryConnection k }

def outstandingRequests (core : LooperCore H) : Nat :=
  core.activeSession.correlator.outstandingRequests

/-- The counter respects the cap whenever the core waits for the next thing to do,
and in between, too, no more requests than that are unanswered at any time. -/
def Respects (k : UInt16) (acts : List Act) (start final : LooperCore H) : Prop :=
  (∀ v ∈ visited env acts start, outstandingRequests v.2 ≤ k.toNat) ∧
    outstandingRequests final ≤ k.toNat ∧
    ∀ pre, pre <+: final.trace → (unanswered pre).length ≤ k.toNat

theorem live_capped (handler : H) (primaryConnection : PeerScope) (k : UInt16) :
    Live (capped handler primaryConnection k) := by
  obtain ⟨⟨⟨hpeer, hkeys, hsettled, hdecided, hinstalled, hkept⟩, hagree, hapart, hfired⟩, hexited,
    hexitTx, hpoisoned, hnoPanic⟩ := live_new handler primaryConnection
  exact ⟨⟨⟨hpeer, hkeys, hsettled, hdecided, hinstalled, hkept⟩, hagree, hapart, hfired⟩, hexited,
    hexitTx, hpoisoned, hnoPanic⟩

theorem within_capped (handler : H) (primaryConnection : PeerScope) (k : UInt16) :
    Within k (capped handler primaryConnection k) := by
  intro _
  refine ⟨⟨rfl, rfl, Nat.zero_le _⟩, rfl, fun pre hpre => ?_⟩
  obtain rfl := List.prefix_nil.mp hpre
  exact Nat.zero_le _

section Runs

variable {env} (hframes : env.pc.FrameRoundTrip)

include hframes

omit hframes in
theorem grown_syncRequest (req : SyncRequest) (core : LooperCore H) :
    core.trace ++ [.installed (nextToken core) req.sessionId] <+:
      ((Act.op (.syncRequest req)).exec env core).2.trace := by
  have hgrown {core core' : LooperCore H} (h : Works core core') : Grown core core' := by
    obtain ⟨es, htrace, -⟩ := h.trace
    exact ⟨es, htrace.symm⟩
  have hsync : Ends (processSyncRequest env req) core fun _ core' =>
      (inserted req.sessionId SyncRequest.entry core).trace <+: core'.trace := by
    refine Ends.bind (Ends.congr (Ends.pure ?_) (insert_apply req.sessionId _ core))
    refine Ends.seq ((works_sendRequestFrame env false req.sessionId _ req.wirePayload).always _) ?_
      fun _ h => hgrown h
    intro answer core₁ h
    cases answer with
    | ok u => exact hgrown h
    | error reason =>
      have hcancel := (Moves.bind (works_cancel (nextToken core)) fun _ =>
        works_recordResolution (nextToken core)).always core₁
      exact hcancel.mono fun _ _ h' => (hgrown h).trans (hgrown h')
  have hact : Ends (Act.exec env (.op (.syncRequest req))) core fun _ core' =>
      (inserted req.sessionId SyncRequest.entry core).trace <+: core'.trace := by
    refine Ends.bind (Ends.seq hsync (fun _ _ h => ?_) fun _ h => h)
    exact Ends.pure h
  exact hact

omit hframes in
theorem unanswered_full (hlive : Live core) (hquota : Quota k core) (sessionId : UInt16)
    (hfull : core.activeSession.wouldExceedCap = true) :
    k.toNat < (unanswered (core.trace ++ [.installed (nextToken core) sessionId])).length := by
  rw [unanswered_nextToken hlive.books.toLedger, List.length_append,
    (unanswered_perm hlive.books hquota.async).length_eq, ← hquota.session.exact]
  simp only [ActiveSession.wouldExceedCap, RequestCorrelator.wouldExceedCap, hquota.session.cap,
    Bool.and_eq_true, decide_eq_true_eq] at hfull
  exact Nat.lt_succ_of_le hfull.2

theorem respects_iff (hk : 0 < k) (handler : H) (primaryConnection : PeerScope) (acts : List Act)
    (hasync : NoAsync (execAll env acts (capped handler primaryConnection k)).2.trace) :
    (∀ v ∈ visited env acts (capped handler primaryConnection k), Roomy v) ↔
      Respects env k acts (capped handler primaryConnection k)
        (execAll env acts (capped handler primaryConnection k)).2 := by
  let start := capped handler primaryConnection k
  let I (core : LooperCore H) := Live core ∧ Within k core
  have hstep (act : Act) (core : LooperCore H) (hcore : I core) (hroom : Roomy (act, core)) :
      Ends (act.exec env) core (Leaves id I (fun _ => Within k) (Within k)) := by
    apply ((leaves_act env (rules_live env hframes) act hcore.1).and
      (within_act env hk act hcore.1 hcore.2 hroom)).mono
    intro o core' ⟨ho, hwithin⟩
    cases o with
    | panicked => exact hwithin
    | done exit =>
      cases exit with
      | none => exact ⟨ho, hwithin⟩
      | some reason => exact hwithin
  have hstart : I start :=
    ⟨live_capped handler primaryConnection k, within_capped handler primaryConnection k⟩
  have hgrown (v : Act × LooperCore H) (hv : v ∈ visited env acts start) :
      Grown (v.1.exec env v.2).2 (execAll env acts start).2 :=
    ((related_of_visited env (grown_act env) acts start).2 v hv).2
  have hearlier (v : Act × LooperCore H) (hv : v ∈ visited env acts start) : NoAsync v.2.trace :=
    hasync.before ((grown_act env v.1 v.2).trans (hgrown v hv))
  constructor
  · intro hroomy
    have hvisited : ∀ v ∈ visited env acts start, I v.2 := by
      obtain hall | ⟨v, hv, -, hbad⟩ := visited_or env hstep acts hstart
      · exact fun v hv => (hall v hv).1
      · exact absurd (hroomy v hv) hbad
    have hfinal : Within k (execAll env acts start).2 := by
      have hleaves := leaves_execAll env hstep acts hstart hroomy
      unfold Ends at hleaves
      cases ho : (execAll env acts start).1 with
      | panicked =>
        rw [ho] at hleaves
        exact hleaves
      | done exit =>
        rw [ho] at hleaves
        cases exit with
        | none => exact hleaves.2
        | some reason => exact hleaves
    refine ⟨fun v hv => ?_, (hfinal hasync).session.bound, (hfinal hasync).spare⟩
    exact ((hvisited v hv).2 (hearlier v hv)).session.bound
  · rintro ⟨-, -, hspare⟩
    obtain hall | ⟨v, hv, ⟨hlive, hwithin⟩, hbad⟩ := visited_or env hstep acts hstart
    · exact fun v hv => (hall v hv).2
    · obtain ⟨act, core⟩ := v
      simp only [Roomy, not_forall, Bool.not_eq_false] at hbad
      obtain ⟨req, rfl, hfull⟩ := hbad
      have hmany := unanswered_full hlive (hwithin (hearlier _ hv)) req.sessionId hfull
      have hpre := (grown_syncRequest req core).trans (hgrown _ hv)
      exact absurd (hspare _ hpre) (Nat.not_le_of_lt hmany)

end Runs

/-- A session with a negotiated cap, in every run of the two loops: the cap holds at
all times if and only if a request of `send_and_wait` is processed only when there is
room for it. Without such requests it always holds. -/
theorem request_cap_iff (hframes : env.pc.FrameRoundTrip) (hk : 0 < k) (handler : H)
    (primaryConnection : PeerScope) :
    let start := capped handler primaryConnection k
    (∀ setupFails ticks,
      let acts := if setupFails then [.fail] else runPlan env.pc ⟨Batch.new, false⟩ ticks
      let final := (Looper.run env setupFails ticks start).2
      NoAsync final.trace →
        (Respects env k acts start final ↔ ∀ v ∈ visited env acts start, Roomy v)) ∧
    ∀ msgs,
      let final := (CoreRequest.run env msgs start).2
      NoAsync final.trace →
        Respects env k (msgs.map (fun msg => .op (.handle msg)) ++ [.close]) start final := by
  intro start
  refine ⟨?_, ?_⟩
  · intro setupFails ticks acts final hasync
    have hrun : final = (execAll env acts start).2 := by rw [← run_plan]
    rw [hrun] at hasync ⊢
    exact (respects_iff hframes hk handler primaryConnection acts hasync).symm
  · intro msgs final hasync
    have hrun : final = (execAll env (msgs.map (fun msg => .op (.handle msg)) ++ [.close]) start).2 := by
      rw [← coreRun_plan, Code.bind_apply]
      show (CoreRequest.run env msgs start).2 = _
      cases CoreRequest.run env msgs start with
      | mk o core =>
        cases o with
        | done reason => rfl
        | panicked => rfl
    rw [hrun] at hasync ⊢
    refine (respects_iff hframes hk handler primaryConnection _ hasync).mp fun v hv req hact => ?_
    have hmem := mem_of_visited env hv
    rw [hact] at hmem
    simp at hmem

section Samples

def roomyCheck (v : Act × LooperCore H) : Bool :=
  match v.1 with
  | .op (.syncRequest _) => !v.2.activeSession.wouldExceedCap
  | _ => true

theorem roomy_of_check {v : Act × LooperCore H} (h : roomyCheck v) : Roomy v := by
  intro req hreq
  simpa [roomyCheck, hreq] using h

def oneByOne : List Tick :=
  [⟨[.sync ⟨5, [7]⟩], false, fun _ => false⟩,
    ⟨[.message (.service 5 [1, 0, 0])], false, fun _ => false⟩,
    ⟨[.sync ⟨5, [7]⟩], false, fun _ => false⟩]

theorem request_cap_oneByOne :
    let final := (Looper.run (Env.idle postcard) false oneByOne (capped () ⟨1⟩ 1)).2
    final.trace.filterMap installedToken = [0, 1] ∧
      Respects (Env.idle postcard) 1 (runPlan postcard ⟨Batch.new, false⟩ oneByOne) (capped () ⟨1⟩ 1)
        final := by
  intro final
  have hroomy : (visited (Env.idle postcard) (runPlan postcard ⟨Batch.new, false⟩ oneByOne)
      (capped () ⟨1⟩ 1)).all roomyCheck := rfl
  refine ⟨rfl, ?_⟩
  have hasync : NoAsync final.trace := by
    intro t s hmem
    have hnone : final.trace.all (fun e => match e with | .installedAsync .. => false | _ => true) :=
      rfl
    simpa using List.all_eq_true.mp hnone _ hmem
  apply ((request_cap_iff (Env.idle postcard) postcard_frame (by decide) () ⟨1⟩).1 false oneByOne
    hasync).mpr
  exact fun v hv => roomy_of_check (List.all_eq_true.mp hroomy v hv)

def twoAtOnce : LooperCore Unit :=
  (Looper.run (Env.idle postcard) false
    [⟨[.sync ⟨5, [7]⟩, .sync ⟨5, [7]⟩], false, fun _ => false⟩] (capped () ⟨1⟩ 1)).2

theorem request_cap_exceeded :
    outstandingRequests twoAtOnce = 2 ∧ unanswered twoAtOnce.trace = [0, 1] ∧
      .queued 0 ∈ twoAtOnce.trace ∧ .queued 1 ∈ twoAtOnce.trace :=
  ⟨rfl, rfl, by decide +kernel, by decide +kernel⟩

end Samples

end Pane.RequestCap
