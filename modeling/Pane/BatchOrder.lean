import Pane.BatchLimit
import Pane.EntrySteps
import Pane.ReplyScope
import Pane.UnsentRequests

namespace Pane.BatchOrder

open Pane.HashTable Pane.Messages Pane.Correlator Pane.Callbacks Pane.Unwinding Pane.LooperState
open Pane.CoreDispatch Pane.CoreRequest Pane.Looper Pane.CoreRuns Pane.LooperPlan
open Pane.RequestLedger Pane.RequestSafety Pane.LooperSafety Pane.ReplyScope Pane.EntrySteps
open Pane.LiveCore Pane.BatchLimit Pane.PostcardFormat
open Pane.CoreSteps (nextToken)

section Folds

variable {α β γ : Type} {f : β → α → β} {bucket : α → Option γ}

theorem foldl_comm (hcomm : ∀ b x y, bucket x ≠ bucket y → f (f b x) y = f (f b y) x) {x : α}
    {before : List α} (hbefore : ∀ y ∈ before, bucket y ≠ bucket x) (b : β) :
    f (before.foldl f b) x = before.foldl f (f b x) := by
  induction before generalizing b with
  | nil => rfl
  | cons y before ih =>
    rw [List.foldl_cons, List.foldl_cons, ih fun z hz => hbefore z (List.mem_cons_of_mem y hz),
      hcomm b y x (hbefore y List.mem_cons_self)]

theorem foldl_eq_of_buckets [DecidableEq γ]
    (hcomm : ∀ b x y, bucket x ≠ bucket y → f (f b x) y = f (f b y) x)
    (hnone : ∀ b x, bucket x = none → f b x = b) {xs ys : List α}
    (h : ∀ k, xs.filter (fun x => bucket x = some k) = ys.filter fun y => bucket y = some k)
    (b : β) :
    xs.foldl f b = ys.foldl f b := by
  induction xs generalizing ys b with
  | nil =>
    -- nothing is left in any bucket
    induction ys with
    | nil => rfl
    | cons y ys ih =>
      cases hy : bucket y with
      | none =>
        rw [List.foldl_cons, hnone b y hy]
        refine ih fun k => ?_
        simpa [List.filter_cons, hy] using h k
      | some k => simpa [List.filter_cons, hy] using h k
  | cons x xs ih =>
    rw [List.foldl_cons]
    cases hx : bucket x with
    | none =>
      rw [hnone b x hx]
      refine ih (fun k => ?_) b
      simpa [List.filter_cons, hx] using h k
    | some k =>
      -- the first of its bucket in both lists
      have hk := h k
      rw [List.filter_cons_of_pos (by simpa using hx)] at hk
      obtain ⟨before, after, rfl, hbefore, -, hafter⟩ := List.filter_eq_cons_iff.mp hk.symm
      have hother : ∀ y ∈ before, bucket y ≠ bucket x := by
        intro y hy
        rw [hx]
        simpa using hbefore y hy
      rw [List.foldl_append, List.foldl_cons, foldl_comm hcomm hother, ← List.foldl_append]
      refine ih (fun l => ?_) (f b x)
      rw [List.filter_append]
      by_cases hl : l = k
      · subst hl
        have hnil : before.filter (fun y => bucket y = some l) = [] :=
          List.filter_eq_nil_iff.mpr hbefore
        rw [hnil, List.nil_append, ← hafter]
      · have hlk : ¬ bucket x = some l := by
          rw [hx]
          exact fun heq => hl (Option.some.inj heq).symm
        have hl' := h l
        rw [List.filter_cons_of_neg (by simpa using hlk), List.filter_append,
          List.filter_cons_of_neg (by simpa using hlk)] at hl'
        exact hl'

end Folds

/-- The fields of `Batch` into which messages are sorted. A revocation and its
wire frame go together. -/
inductive Bucket
  | syncRequests
  | replies
  | failed
  | teardowns
  | paneExited
  | subscriberConnected
  | lifecycle
  | requests
  | notifications
  | revocations
  | newConnection
  | channelClosed
deriving DecidableEq

/-- What a message adds to the batch. -/
inductive Update
  | syncRequest (req : SyncRequest)
  | reply (r : UInt16 × Token × Bytes)
  | failed (r : UInt16 × Token)
  | teardown (r : UInt16 × TeardownReason)
  | paneExited (r : Address × ExitReason)
  | subscriberConnected (sessionId : UInt16)
  | lifecycle (msg : LifecycleMessage)
  | request (r : UInt16 × Token × Bytes)
  | notification (r : UInt16 × Bytes)
  | revocation (sessionId : UInt16)
  | newConnection (registers : Bool)
  | channelClosed

namespace Update

def bucket : Update → Bucket
  | .syncRequest _ => .syncRequests
  | .reply _ => .replies
  | .failed _ => .failed
  | .teardown _ => .teardowns
  | .paneExited _ => .paneExited
  | .subscriberConnected _ => .subscriberConnected
  | .lifecycle _ => .lifecycle
  | .request _ => .requests
  | .notification _ => .notifications
  | .revocation _ => .revocations
  | .newConnection _ => .newConnection
  | .channelClosed => .channelClosed

def apply (pc : Postcard) (b : Batch) : Update → Batch
  | .syncRequest req => { b with syncRequests := b.syncRequests ++ [req] }
  | .reply r => { b with replies := b.replies ++ [r] }
  | .failed r => { b with failed := b.failed ++ [r] }
  | .teardown r => { b with teardowns := b.teardowns ++ [r] }
  | .paneExited r => { b with paneExited := b.paneExited ++ [r] }
  | .subscriberConnected s => { b with subscriberConnected := b.subscriberConnected ++ [s] }
  | .lifecycle msg => { b with lifecycle := b.lifecycle ++ [msg] }
  | .request r => { b with requests := b.requests ++ [r] }
  | .notification r => { b with notifications := b.notifications ++ [r] }
  | .revocation s => b.collectRevoke pc s
  | .newConnection registers => { b with newConnection := some registers }
  | .channelClosed => { b with channelClosed := true }

theorem apply_collectRevoke (pc : Postcard) (b : Batch) (sessionId : UInt16) {u : Update}
    (h : u.bucket ≠ .revocations) :
    u.apply pc (b.collectRevoke pc sessionId) = (u.apply pc b).collectRevoke pc sessionId := by
  by_cases hs : sessionId ∈ b.revokedSessions
  · cases u with
    | revocation s => exact absurd rfl h
    | _ => simp [apply, Batch.collectRevoke, hs]
  · cases u with
    | revocation s => exact absurd rfl h
    | _ => simp [apply, Batch.collectRevoke, hs]

theorem apply_comm (pc : Postcard) (b : Batch) {u v : Update} (h : u.bucket ≠ v.bucket) :
    v.apply pc (u.apply pc b) = u.apply pc (v.apply pc b) := by
  cases u with
  | revocation s => exact apply_collectRevoke pc b s h.symm
  | _ =>
    cases v with
    | revocation s => exact (apply_collectRevoke pc b s h).symm
    | _ => first | rfl | exact absurd rfl h

end Update

def frameUpdate (sessionId : UInt16) : ServiceFrame → Update
  | .reply token bytes => .reply (sessionId, token, bytes)
  | .failed token => .failed (sessionId, token)
  | .request token inner => .request (sessionId, token, inner)
  | .notification inner => .notification (sessionId, inner)

def update (pc : Postcard) : Input → Option Update
  | .message (.control (.lifecycle msg)) => some (.lifecycle msg)
  | .message (.control (.serviceTeardown sessionId reason)) => some (.teardown (sessionId, reason))
  | .message (.control (.paneExited address reason)) => some (.paneExited (address, reason))
  | .message (.control (.interestAccepted _ sessionId _)) => some (.subscriberConnected sessionId)
  | .message (.control _) => none
  | .message (.localRevoke sessionId) => some (.revocation sessionId)
  | .message (.newConnection registers) => some (.newConnection registers)
  | .message (.service sessionId payload) => (pc.frameFromBytes payload).map (frameUpdate sessionId)
  | .sync req => some (.syncRequest req)
  | .pulse => some (.lifecycle .pulse)
  | .closed => some .channelClosed

theorem collectInput_eq (pc : Postcard) (b : Batch) (input : Input) :
    collectInput pc b input = match update pc input with
      | some u => u.apply pc b
      | none => b := by
  cases input with
  | sync req => rfl
  | pulse => rfl
  | closed => rfl
  | message msg =>
    cases msg with
    | localRevoke sessionId => rfl
    | newConnection registers => rfl
    | control msg => cases msg <;> rfl
    | service sessionId payload =>
      rw [collectInput, Batch.collect, update]
      cases pc.frameFromBytes payload with
      | none => rfl
      | some frame => cases frame <;> rfl

def bucketOf (pc : Postcard) (input : Input) : Option Bucket := (update pc input).map Update.bucket

theorem collect_eq_of_buckets (pc : Postcard) {inputs inputs' : List Input}
    (h : ∀ k, inputs.filter (fun i => bucketOf pc i = some k) =
      inputs'.filter fun i => bucketOf pc i = some k) (b : Batch) :
    inputs.foldl (collectInput pc) b = inputs'.foldl (collectInput pc) b := by
  refine foldl_eq_of_buckets ?_ ?_ h b
  · intro b x y hxy
    rw [bucketOf, bucketOf] at hxy
    simp only [collectInput_eq]
    cases hx : update pc x with
    | none => rfl
    | some u =>
      cases hy : update pc y with
      | none => rfl
      | some v =>
        refine Update.apply_comm pc b fun huv => hxy ?_
        rw [hx, hy, Option.map_some, Option.map_some, huv]
  · intro b x hx
    rw [bucketOf, Option.map_eq_none_iff] at hx
    rw [collectInput_eq, hx]

section Replies

variable {H : Type} {env : Env H} {core core' : LooperCore H} {t : Token}

structure Spares (t : Token) (core core' : LooperCore H) : Prop where
  peer : core'.primaryConnection = core.primaryConnection
  entries : core'.dispatch.entries.lookup (core.primaryConnection, t) =
    core.dispatch.entries.lookup (core.primaryConnection, t)
  asyncEntries : core'.dispatch.asyncEntries.lookup (core.primaryConnection, t) =
    core.dispatch.asyncEntries.lookup (core.primaryConnection, t)

theorem Spares.refl (t : Token) (core : LooperCore H) : Spares t core core := ⟨rfl, rfl, rfl⟩

theorem Spares.trans {core'' : LooperCore H} (h : Spares t core core')
    (h' : Spares t core' core'') :
    Spares t core core'' :=
  ⟨h'.peer.trans h.peer, (h.peer ▸ h'.entries).trans h.entries,
    (h.peer ▸ h'.asyncEntries).trans h.asyncEntries⟩

theorem Spares.pending (h : Spares t core core') : Pending core' t ↔ Pending core t := by
  rw [Pending, Pending, h.peer, mem_iff_lookup, mem_iff_lookup, h.entries]

theorem Spares.pendingAsync (h : Spares t core core') :
    PendingAsync core' t ↔ PendingAsync core t := by
  rw [PendingAsync, PendingAsync, h.peer, mem_iff_lookup, mem_iff_lookup, h.asyncEntries]

theorem spares_removeEntry {u : Token} (h : u ≠ t) (core : LooperCore H) :
    Spares t core (removeEntry (core.primaryConnection, u) core) := by
  refine ⟨rfl, ?_, rfl⟩
  rw [removeEntry, lookup_erase, if_neg]
  exact fun heq => h (congrArg Prod.snd heq).symm

theorem spares_inserted (h : t < nextToken core) (sessionId : UInt16) (entry : DispatchEntry H) :
    Spares t core (inserted sessionId entry core) := by
  refine ⟨rfl, ?_, rfl⟩
  simp only [inserted, LooperCore.log]
  rw [lookup_insert, if_neg]
  exact fun heq => Nat.ne_of_lt h (congrArg Prod.snd heq)

theorem Spares.log (h : Spares t core core') (e : Event) : Spares t core (core'.log e) :=
  ⟨h.peer, h.entries, h.asyncEntries⟩

theorem spares_processSyncRequest (hlive : Live core) (ht : t < nextToken core)
    (req : SyncRequest) :
    Ends (processSyncRequest env req) core fun o core' => o = .done () → Spares t core core' := by
  let core₁ := inserted req.sessionId SyncRequest.entry core
  have hspares : Spares t core core₁ := spares_inserted ht _ _
  refine Ends.bind (Ends.congr (Ends.pure ?_) (insert_apply req.sessionId _ core))
  apply Ends.bind
  unfold Ends
  cases hframe : env.pc.frameToAllocvec
      (.request core.activeSession.correlator.nextToken req.wirePayload) with
  | none =>
    rw [sendRequestFrame, hframe]
    exact fun h => by cases h
  | some outer =>
    cases hanswer : env.trySend core₁.trace.length with
    | ok u =>
      rw [UnsentRequests.sendRequestFrame_ok env hframe hanswer]
      exact fun _ => (hspares.log _).log _
    | error reason =>
      rw [UnsentRequests.sendRequestFrame_error env hframe hanswer]
      have hrefused : Fresh (nextToken core) (core₁.log (.refused req.sessionId outer)) :=
        fresh_still (fresh_inserted _ _ hlive) (.single ⟨rfl, rfl, rfl, rfl, rfl, rfl⟩ rfl rfl rfl)
      show Ends (do
        let _ ← cancel (nextToken core)
        recordResolution (nextToken core)) (core₁.log (.refused req.sessionId outer))
          fun o core' => o = .done () → Spares t core core'
      apply Ends.bind
      unfold Ends
      rw [cancel_fresh hrefused]
      have hremoved := (hspares.log (.refused req.sessionId outer)).trans
        (spares_removeEntry (Ne.symm (Nat.ne_of_lt ht)) _)
      exact fun _ => ⟨hremoved.peer, hremoved.entries, hremoved.asyncEntries⟩

theorem spares_dispatchReply (hcore : Reached env core) (sessionId : UInt16) {u : Token}
    (hu : u ≠ t) (bytes : Bytes) :
    Ends (dispatchReply env sessionId u bytes) core fun o core' =>
      o = .done .cont → Spares t core core' := by
  have hmatched := matched_of_live env (live_of_reached hcore) false sessionId u (.reply bytes)
  cases hsession : sessionOf core u with
  | none =>
    have hsame : dispatchReply env sessionId u bytes core = (.done .cont, core) :=
      hmatched.1 hsession
    unfold Ends
    rw [hsame]
    exact fun _ => .refl t core
  | some sent =>
    apply ((hmatched.2 sent hsession).and
      ((paces_dispatchFrame false sessionId _).always core)).mono
    rintro o core' ⟨ho, hcourse⟩ hcont
    have hne : (core.primaryConnection, t) ≠ (core.primaryConnection, u) :=
      fun heq => hu (congrArg Prod.snd heq).symm
    have hresolved := ho.2 hcont
    refine ⟨peer_course hcourse, ?_, ?_⟩
    · rw [hresolved.entries, if_neg hne]
    · rw [hresolved.asyncEntries, if_neg hne]

def syncAct (req : SyncRequest) : Act := .op (.syncRequest req)

def replyAct (r : UInt16 × Token × Bytes) : Act := .op (.service false r.1 (.reply r.2.1 r.2.2))

def Earlier (t : Token) (act : Act) : Prop :=
  (∃ req, act = syncAct req) ∨ ∃ r : UInt16 × Token × Bytes, act = replyAct r ∧ r.2.1 ≠ t

theorem outstanding_of_spares (hcore : Reached env core) (hcore' : Reached env core')
    (h : Spares t core core') (ht : (sessionOf core t).isSome) : (sessionOf core' t).isSome := by
  have hbooks := (live_of_reached hcore).books
  have hbooks' := (live_of_reached hcore').books
  rw [hbooks.agree] at ht
  rw [hbooks'.agree, h.pending, h.pendingAsync]
  exact ht

theorem spares_act (hcore : Reached env core) (ht : (sessionOf core t).isSome) {act : Act}
    (hact : Earlier t act) :
    Ends (act.exec env) core (Leaves id (fun core' => Reached env core' ∧ Spares t core core')
      (fun _ _ => True) fun _ => True) := by
  have hop : ∃ op, act = .op op ∧
      Ends (op.exec env) core fun o core' => o = .done .cont → Spares t core core' := by
    obtain ⟨req, rfl⟩ | ⟨r, rfl, hr⟩ := hact
    · obtain ⟨s, hs⟩ := Option.isSome_iff_exists.mp ht
      have hlt : t < nextToken core := RequestCorrelator.lt_of_sessionOf _ hs
      refine ⟨_, rfl, Ends.bind ?_⟩
      apply (spares_processSyncRequest (live_of_reached hcore) hlt req).mono
      intro o core' ho
      cases o with
      | done u => exact fun _ => ho rfl
      | panicked => exact nofun
    · exact ⟨_, rfl, spares_dispatchReply hcore r.1 hr r.2.2⟩
  obtain ⟨op, rfl, hspares⟩ := hop
  unfold Ends at hspares ⊢
  rw [Act.exec, Code.bind_apply]
  cases hexec : op.exec env core with
  | mk o core' =>
    rw [hexec] at hspares
    cases o with
    | panicked => trivial
    | done outcome =>
      cases outcome with
      | exit reason => trivial
      | cont => exact ⟨reached_next op hcore hexec, hspares rfl⟩

theorem spares_earlier (hcore : Reached env core) (ht : (sessionOf core t).isSome)
    {acts : List Act} (hacts : ∀ act ∈ acts, Earlier t act) :
    Ends (execAll env acts) core (Leaves id (fun core' => Reached env core' ∧ Spares t core core')
      (fun _ _ => True) fun _ => True) := by
  have hstep : ∀ act core₁, Reached env core₁ ∧ Spares t core core₁ → Earlier t act →
      Ends (act.exec env) core₁ (Leaves id (fun core' => Reached env core' ∧ Spares t core core')
        (fun _ _ => True) fun _ => True) := by
    rintro act core₁ ⟨hcore₁, hspares⟩ hact
    apply (spares_act hcore₁ (outstanding_of_spares hcore hcore₁ hspares ht) hact).mono
    intro o core₂ ho
    cases o with
    | panicked => trivial
    | done exit =>
      cases exit with
      | some reason => trivial
      | none => exact ⟨ho.1, hspares.trans ho.2⟩
  exact leaves_execAll env hstep acts ⟨hcore, .refl t core⟩
    fun v hv => hacts v.1 (mem_of_visited env hv)

theorem uses_grown {answer : Answer} {core'' : LooperCore H} (h : Uses t answer core core')
    (h' : EventFilters.Grown core' core'') : Uses t answer core core'' := by
  obtain ⟨e, es, htrace, he⟩ := h
  obtain ⟨es', htrace'⟩ := h'
  exact ⟨e, es ++ es', by rw [← htrace', htrace, List.append_assoc, List.cons_append], he⟩

theorem spent_of_uses {answer : Answer} (h : Uses t answer core core') :
    ∃ e ∈ core'.trace, spent e = some t := by
  obtain ⟨e, es, htrace, he⟩ := h
  refine ⟨e, by simp [htrace], ?_⟩
  split at he
  · subst he
    cases answer <;> rfl
  · obtain rfl | rfl := he
    · cases answer <;> rfl
    · rfl

theorem reply_used (hcore : Reached env core) (ht : (sessionOf core t).isSome)
    (elapsed : Nat → Bool) {state : LoopState} {early late : List (UInt16 × Token × Bytes)}
    {sessionId : UInt16} {bytes : Bytes}
    (hreplies : state.batch.replies = early ++ (sessionId, t, bytes) :: late)
    (hearly : ∀ r ∈ early, r.2.1 ≠ t) {core₁ : LooperCore H}
    (hreached : execAll env (state.batch.syncRequests.map syncAct ++ early.map replyAct) core =
      (.done none, core₁)) :
    (Pending core₁ t ↔ Pending core t) ∧
      Uses t (.reply bytes) core₁ (dispatchBatch env elapsed state core).2 ∧
      (dispatchBatch env elapsed state core).2.trace.countP (spends t) = 1 := by
  have hacts : ∀ act ∈ state.batch.syncRequests.map syncAct ++ early.map replyAct,
      Earlier t act := by
    intro act hact
    obtain hact | hact := List.mem_append.mp hact
    · obtain ⟨req, -, rfl⟩ := List.mem_map.mp hact
      exact .inl ⟨req, rfl⟩
    · obtain ⟨r, hr, rfl⟩ := List.mem_map.mp hact
      exact .inr ⟨r, rfl, hearly r hr⟩
  have hbefore := spares_earlier hcore ht hacts
  unfold Ends at hbefore
  rw [hreached] at hbefore
  obtain ⟨hcore₁, hspares⟩ := hbefore
  have ht₁ := outstanding_of_spares hcore hcore₁ hspares ht
  obtain ⟨rest, hplan⟩ : ∃ rest, (batchPlan elapsed state).1 =
      (state.batch.syncRequests.map syncAct ++ early.map replyAct) ++
        replyAct (sessionId, t, bytes) :: rest := by
    rw [batchPlan, frameworkPlan, hreplies]
    simp only [List.map_append, List.map_cons, List.append_assoc, List.cons_append]
    exact ⟨_, rfl⟩
  have hlast : (dispatchBatch env elapsed state core).2 =
      (execAll env (replyAct (sessionId, t, bytes) :: rest) core₁).2 := by
    rw [dispatchBatch_snd, hplan, execAll_append, Code.orNext, hreached]
  have huses : Uses t (.reply bytes) core₁ (dispatchBatch env elapsed state core).2 := by
    rw [hlast]
    obtain ⟨-, hvisited⟩ := related_of_visited env (EventFilters.grown_act env)
      (replyAct (sessionId, t, bytes) :: rest) core₁
    have hreply : Ends (Act.exec env (replyAct (sessionId, t, bytes))) core₁
        fun _ core₂ => Uses t (.reply bytes) core₁ core₂ := by
      refine Ends.bind ?_
      apply (dispatchResolution_uses env (live_of_reached hcore₁) ht₁ (.reply bytes)).mono
      intro o core₂ ho
      cases o with
      | panicked => exact ho.1
      | done outcome => cases outcome <;> exact ho.1
    exact uses_grown hreply (hvisited _ List.mem_cons_self).2
  refine ⟨hspares.pending, huses, ?_⟩
  have hcourse : Course core (dispatchBatch env elapsed state core).2 := by
    rw [dispatchBatch_snd]
    exact (paces_execAll env _).always core
  obtain ⟨e, he, hspent⟩ := spent_of_uses huses
  exact ((tidy_course hcourse (tidy_of_reached hcore)).gone he hspent).1

/-- A batch depends on the order of arrival only inside its buckets. In particular
a reply to an outstanding request comes before whatever else the batch has for it:
the first one is what uses the entry up, unless the looper is left before. -/
theorem batch_order (state : LoopState) (elapsed : Nat → Bool) {inputs inputs' : List Input}
    (h : ∀ k, inputs.filter (fun i => bucketOf env.pc i = some k) =
      inputs'.filter fun i => bucketOf env.pc i = some k) :
    (∀ pollFails, tickStep env state ⟨inputs, pollFails, elapsed⟩ =
      tickStep env state ⟨inputs', pollFails, elapsed⟩) ∧
    ∀ core t, Reached env core → (sessionOf core t).isSome →
      let b := inputs.foldl (collectInput env.pc) state.batch
      (∃ r ∈ b.replies, r.2.1 = t) →
      ∃ early sessionId bytes late, b.replies = early ++ (sessionId, t, bytes) :: late ∧
        (∀ r ∈ early, r.2.1 ≠ t) ∧
        ∀ core₁, execAll env (b.syncRequests.map syncAct ++ early.map replyAct) core =
            (.done none, core₁) →
          let core' := (tickStep env state ⟨inputs, false, elapsed⟩ core).2
          (Pending core₁ t ↔ Pending core t) ∧ Uses t (.reply bytes) core₁ core' ∧
            core'.trace.countP (spends t) = 1 := by
  refine ⟨fun pollFails => ?_, fun core t hcore ht => ?_⟩
  · rw [tickStep, tickStep]
    dsimp only
    rw [collect_eq_of_buckets env.pc h state.batch]
  · intro b
    rintro ⟨r, hr, hrt⟩
    have hfind : (b.replies.find? fun r => r.2.1 = t).isSome :=
      List.find?_isSome.mpr ⟨r, hr, by simpa using hrt⟩
    obtain ⟨⟨sessionId, u, bytes⟩, hfirst⟩ := Option.isSome_iff_exists.mp hfind
    obtain ⟨hu, early, late, hreplies, hearly⟩ := List.find?_eq_some_iff_append.mp hfirst
    obtain rfl : u = t := by simpa using hu
    have hother : ∀ r ∈ early, r.2.1 ≠ u := fun r hr => by simpa using hearly r hr
    refine ⟨early, sessionId, bytes, late, hreplies, hother, fun core₁ hreached => ?_⟩
    have hempty : b.isEmpty = false := by
      simp [Batch.isEmpty, hreplies]
    have htick : tickStep env state ⟨inputs, false, elapsed⟩ =
        dispatchBatch env elapsed { state with batch := b } := by
      rw [tickStep]
      simp [b, hempty]
    rw [htick]
    exact reply_used hcore ht elapsed hreplies hother hreached

end Replies

section Samples

def replyLast : List Input :=
  [.message (.service 1 [2, 0]), .message (.control (.serviceTeardown 1 .serviceRevoked)),
    .message (.service 1 [1, 0, 1, 9])]

theorem batch_order_replyLast :
    let env := Env.idle postcard
    let state : LoopState := ⟨Batch.new, false⟩
    let last := tickStep env state ⟨replyLast, false, fun _ => false⟩ requested
    last = tickStep env state ⟨replyLast.reverse, false, fun _ => false⟩ requested ∧
      Event.called (.onReply 0 [9]) ∈ last.2.trace ∧ last.2.trace.countP (spends 0) = 1 := by
  intro env state last
  have hbuckets : ∀ k, replyLast.filter (fun i => bucketOf env.pc i = some k) =
      replyLast.reverse.filter fun i => bucketOf env.pc i = some k := by
    intro k
    cases k <;> rfl
  obtain ⟨hsame, hreply⟩ := batch_order state (fun _ => false) hbuckets
  obtain ⟨early, s, bytes, late, hreplies, -, hused⟩ :=
    hreply requested 0 (reached_of_reachable reachable_requested) rfl ⟨(1, 0, [9]), by decide, rfl⟩
  have honly : [((1 : UInt16), (0 : Token), ([9] : Bytes))] = early ++ (s, 0, bytes) :: late :=
    hreplies
  cases early with
  | cons r early => simp at honly
  | nil =>
    cases honly
    obtain ⟨-, ⟨e, es, htrace, he⟩, hcount⟩ := hused requested rfl
    rw [if_pos (by decide)] at he
    refine ⟨congrFun (hsame false) requested, ?_, hcount⟩
    rw [htrace, he]
    simp [Answer.call]

end Samples

end Pane.BatchOrder
