import Mathlib.Algebra.GroupWithZero.Nat
import Pane.PostcardFormat
import Pane.VisibleEvents

namespace Pane.BatchLimit

open Pane.HashTable Pane.Messages Pane.Correlator Pane.Callbacks Pane.Unwinding Pane.LooperState
open Pane.CoreDispatch Pane.CoreRequest Pane.Looper Pane.CoreRuns Pane.LooperPlan
open Pane.ContextEffects Pane.EventFilters Pane.VisibleEvents Pane.PostcardFormat

section Portions

variable {α : Type} (revoked : HashSet UInt16) (session : α → UInt16)

def live (as : List α) : List α := as.filter fun a => decide (session a ∉ revoked)

variable {revoked session} {elapsed : Nat → Bool} {dispatched : Nat} {as : List α}

theorem live_cons_revoked {a : α} (h : session a ∈ revoked) :
    live revoked session (a :: as) = live revoked session as := by
  simp [live, h]

theorem live_cons {a : α} (h : session a ∉ revoked) :
    live revoked session (a :: as) = a :: live revoked session as := by
  simp [live, h]

variable (revoked session elapsed dispatched as) in
theorem portion_count :
    let p := portion revoked elapsed session dispatched as
    p.2.1 = dispatched + p.1.length ∧ p.2.1 ≤ max (dispatched + 1) defaultBatchMsgLimit := by
  induction as generalizing dispatched with
  | nil =>
    rw [portion]
    exact ⟨rfl, Nat.le_trans (Nat.le_succ dispatched) (Nat.le_max_left ..)⟩
  | cons a as ih =>
    rw [portion]
    split
    · exact ih dispatched
    · split
      · exact ⟨rfl, Nat.le_max_left ..⟩
      next hmore =>
        obtain ⟨hcount, hle⟩ := ih (dispatched + 1)
        dsimp only
        rw [List.length_cons]
        constructor
        · omega
        · omega

theorem portion_eq_live (h : (portion revoked elapsed session dispatched as).2.2 = []) :
    (portion revoked elapsed session dispatched as).1 = live revoked session as := by
  induction as generalizing dispatched with
  | nil => rfl
  | cons a as ih =>
    rw [portion] at h ⊢
    by_cases hrevoked : session a ∈ revoked
    · rw [if_pos hrevoked] at h ⊢
      rw [live_cons_revoked hrevoked, ih h]
    · rw [if_neg hrevoked] at h ⊢
      rw [live_cons hrevoked]
      split at h
      next hlast =>
        rw [if_pos hlast]
        obtain rfl : as = [] := h
        rfl
      next hmore =>
        rw [if_neg hmore]
        exact congrArg (a :: ·) (ih h)

theorem last_of_portion (hlt : dispatched < defaultBatchMsgLimit)
    (hleft : (portion revoked elapsed session dispatched as).2.2 = [])
    (hfull : (portion revoked elapsed session dispatched as).2.1 = defaultBatchMsgLimit) :
    ∃ a, as.getLast? = some a ∧ session a ∉ revoked := by
  induction as generalizing dispatched with
  | nil => exact absurd hfull (Nat.ne_of_lt hlt)
  | cons a as ih =>
    have hlater (h : ∃ b, as.getLast? = some b ∧ session b ∉ revoked) :
        ∃ b, (a :: as).getLast? = some b ∧ session b ∉ revoked := by
      obtain ⟨b, hb, hlive⟩ := h
      exact ⟨b, by rw [List.getLast?_cons, hb]; rfl, hlive⟩
    rw [portion] at hleft hfull
    split at hleft
    next hrevoked =>
      rw [if_pos hrevoked] at hfull
      exact hlater (ih hlt hleft hfull)
    next hrevoked =>
      rw [if_neg hrevoked] at hfull
      split at hleft
      next hlast =>
        obtain rfl : as = [] := hleft
        exact ⟨a, rfl, hrevoked⟩
      next hmore =>
        rw [if_neg hmore] at hfull
        exact hlater (ih (by omega) hleft hfull)

theorem portion_full (hlt : dispatched < defaultBatchMsgLimit)
    (hfull : dispatched + (live revoked session as).length = defaultBatchMsgLimit)
    (hlast : ∃ a, as.getLast? = some a ∧ session a ∉ revoked) :
    (portion revoked (fun _ => false) session dispatched as).2 = (defaultBatchMsgLimit, []) := by
  induction as generalizing dispatched with
  | nil =>
    obtain ⟨a, ha, -⟩ := hlast
    nomatch ha
  | cons a as ih =>
    obtain ⟨z, hz, hlive⟩ := hlast
    rw [List.getLast?_cons] at hz
    have hrest (hne : as ≠ []) : ∃ b, as.getLast? = some b ∧ session b ∉ revoked := by
      rw [List.getLast?_eq_some_getLast hne] at hz ⊢
      have hlast : as.getLast hne = z := Option.some.inj hz
      exact ⟨_, rfl, hlast ▸ hlive⟩
    rw [portion]
    by_cases hrevoked : session a ∈ revoked
    · rw [if_pos hrevoked]
      rw [live_cons_revoked hrevoked] at hfull
      refine ih hlt hfull (hrest ?_)
      rintro rfl
      exact hlive (Option.some.inj hz ▸ hrevoked)
    · rw [if_neg hrevoked]
      rw [live_cons hrevoked, List.length_cons] at hfull
      by_cases hend : defaultBatchMsgLimit ≤ dispatched + 1
      · rw [if_pos (.inl hend)]
        have hnil : as = [] := by
          by_contra hne
          obtain ⟨b, hb, hblive⟩ := hrest hne
          have hmem : b ∈ live revoked session as :=
            List.mem_filter.mpr ⟨List.mem_of_getLast? hb, by simpa using hblive⟩
          have hpos := List.length_pos_of_mem hmem
          omega
        rw [hnil]
        exact congrArg (·, []) (by omega)
      · rw [if_neg (by simpa using hend)]
        refine ih (by omega) (by omega) (hrest ?_)
        rintro rfl
        have hzero : (live revoked session ([] : List α)).length = 0 := rfl
        omega

theorem mem_portion {a : α} (h : a ∈ (portion revoked elapsed session dispatched as).1) :
    a ∈ as ∧ session a ∉ revoked := by
  induction as generalizing dispatched with
  | nil => nomatch h
  | cons b as ih =>
    rw [portion] at h
    split at h
    · exact ⟨List.mem_cons_of_mem b (ih h).1, (ih h).2⟩
    next hlive =>
      have hfirst (hab : a = b) : a ∈ b :: as ∧ session a ∉ revoked :=
        ⟨hab ▸ List.mem_cons_self, hab ▸ hlive⟩
      split at h
      · exact hfirst (List.mem_singleton.mp h)
      · obtain hab | h := List.mem_cons.mp h
        · exact hfirst hab
        · exact ⟨List.mem_cons_of_mem b (ih h).1, (ih h).2⟩

theorem portion_pos (h : ∃ a ∈ as, session a ∉ revoked) :
    1 ≤ (portion revoked elapsed session dispatched as).1.length := by
  induction as generalizing dispatched with
  | nil =>
    obtain ⟨a, ha, -⟩ := h
    nomatch ha
  | cons a as ih =>
    rw [portion]
    split
    next hrevoked =>
      obtain ⟨b, hb, hlive⟩ := h
      obtain rfl | hb := List.mem_cons.mp hb
      · exact absurd hrevoked hlive
      · exact ih ⟨b, hb, hlive⟩
    · split
      · exact Nat.le_refl 1
      · exact Nat.succ_le_succ (Nat.zero_le _)

end Portions

section Counting

variable {H : Type} (env : Env H)

def isHanded : Event → Bool
  | .handed .. => true
  | _ => false

/-- How many requests and notifications went to the service dispatch table. -/
def handedIn (core : LooperCore H) : Nat := core.trace.countP isHanded

def hands (pc : Postcard) (act : Act) : Nat := (ofAct pc act).countP isHanded

theorem admits_unhanded : Admits (fun e => isHanded e = false) fun _ => True where
  work e he := by cases e <;> simp_all [isWork, isHanded]
  panicked _ _ := rfl
  onFailed _ := rfl
  notes _ _ := trivial

variable {env} {core core' : LooperCore H}

theorem handedIn_of_shows (h : Shows (fun e => isHanded e = false) core core') :
    handedIn core' = handedIn core := by
  obtain ⟨es, htrace, hes⟩ := h.trace
  have hnone : es.countP isHanded = 0 := List.countP_eq_zero.mpr fun e he => by simp [hes e he]
  rw [handedIn, handedIn, htrace, List.countP_append, hnone, Nat.add_zero]

theorem handedIn_of_adds {seen : List Event} (h : Adds seen core core') :
    handedIn core' = handedIn core + seen.countP isHanded := by
  obtain ⟨es, htrace, rfl⟩ := h
  rw [handedIn, handedIn, htrace, List.countP_append, List.countP_filter]
  congr 1
  apply List.countP_congr
  intro e _
  cases e <;> simp [isHanded, isVisible]

theorem handedIn_moves {α : Type} {m : Loop H α} {seen : List Event}
    (h : Moves (Adds seen) (Adds seen) m) (core : LooperCore H) :
    handedIn (m core).2 = handedIn core + seen.countP isHanded :=
  handedIn_of_adds (h.always core)

theorem handedIn_frame (direct : Bool) (sessionId : UInt16) (frame : ServiceFrame)
    (core : LooperCore H) :
    handedIn (dispatchFrame env direct sessionId frame core).2 =
      handedIn core + (ofFrame sessionId frame).countP isHanded := by
  cases frame with
  | notification inner => exact handedIn_moves (adds_dispatchNotification env sessionId inner) core
  | request token inner =>
    exact handedIn_moves (adds_dispatchRequestWithContext env direct sessionId token inner) core
  | reply token bytes =>
    exact handedIn_of_shows ((only_dispatchFrame env admits_unhanded direct sessionId
      (.reply token bytes) (by simp [ofFrame, isHanded]) fun _ => trivial).always core)
  | failed token =>
    exact handedIn_of_shows ((only_dispatchFrame env admits_unhanded direct sessionId
      (.failed token) (by simp [ofFrame]) fun _ => trivial).always core)

theorem exec_op_snd (op : Op) (core : LooperCore H) :
    (Act.exec env (.op op) core).2 = (op.exec env core).2 := by
  rw [Act.exec, Code.bind_apply]
  cases op.exec env core with
  | mk o core' =>
    cases o with
    | panicked => rfl
    | done outcome =>
      cases outcome with
      | cont => rfl
      | exit reason => rfl

theorem handedIn_service (direct : Bool) (sessionId : UInt16) (frame : ServiceFrame)
    (core : LooperCore H) :
    handedIn (Act.exec env (.op (.service direct sessionId frame)) core).2 =
      handedIn core + (ofFrame sessionId frame).countP isHanded := by
  rw [exec_op_snd]
  exact handedIn_frame direct sessionId frame core

variable (env) in
theorem handedIn_act (act : Act) (core : LooperCore H) :
    handedIn (act.exec env core).2 = handedIn core + hands env.pc act := by
  have hother (h : ∀ e ∈ ofAct env.pc act, isHanded e = false) :
      handedIn (act.exec env core).2 = handedIn core + hands env.pc act := by
    have hnone : hands env.pc act = 0 := List.countP_eq_zero.mpr fun e he => by simp [h e he]
    rw [hnone]
    exact handedIn_of_shows ((only_act env admits_unhanded act h fun _ _ _ => trivial).always core)
  cases act with
  | close => exact hother (by simp [ofAct, isHanded])
  | fail => exact hother (by simp [ofAct])
  | op op =>
    cases op with
    | service direct sessionId frame => exact handedIn_service direct sessionId frame core
    | syncRequest req => exact hother (by simp [ofAct, ofOp])
    | tearDown sessionId reason => exact hother (by simp [ofAct, ofOp, isHanded])
    | connectSubscriber sessionId => exact hother (by simp [ofAct, ofOp, isHanded])
    | write payload => exact hother (by simp [ofAct, ofOp])
    | handle msg =>
      cases msg with
      | service sessionId payload =>
        rw [exec_handle_service, hands, ofAct, ofOp, ofMessage]
        cases env.pc.frameFromBytes payload with
        | none => rfl
        | some frame => exact handedIn_service false sessionId frame core
      | localRevoke sessionId => exact hother (by simp [ofAct, ofOp, ofMessage])
      | newConnection registers => exact hother (by simp [ofAct, ofOp, ofMessage])
      | control msg => cases msg <;> exact hother (by simp [ofAct, ofOp, ofMessage, isHanded])

variable (env) in
theorem handedIn_execAll (acts : List Act) (core : LooperCore H) :
    handedIn (execAll env acts core).2 ≤ handedIn core + (acts.map (hands env.pc)).sum ∧
      ((execAll env acts core).1 = .done none →
        handedIn (execAll env acts core).2 = handedIn core + (acts.map (hands env.pc)).sum) := by
  induction acts generalizing core with
  | nil => exact ⟨Nat.le_refl _, fun _ => rfl⟩
  | cons act acts ih =>
    have hact := handedIn_act env act core
    rw [List.map_cons, List.sum_cons, ← Nat.add_assoc, ← hact]
    obtain ⟨core', hexec, hall, -⟩ | ⟨hne, hall, -⟩ := execAll_cons env act acts core
    · rw [hall, hexec]
      exact ih core'
    · rw [hall]
      exact ⟨Nat.le_add_right .., fun h => absurd h hne⟩

end Counting

section Batches

variable {H : Type}

theorem hands_eq_zero {α : Type} {f : α → Act} {pc : Postcard} (h : ∀ a, hands pc (f a) = 0)
    (as : List α) : ((as.map f).map (hands pc)).sum = 0 := by
  induction as with
  | nil => rfl
  | cons a as ih => rw [List.map_cons, List.map_cons, List.sum_cons, h a, ih]

theorem hands_eq_length {α : Type} {f : α → Act} {pc : Postcard} (h : ∀ a, hands pc (f a) = 1)
    (as : List α) : ((as.map f).map (hands pc)).sum = as.length := by
  induction as with
  | nil => rfl
  | cons a as ih =>
    rw [List.map_cons, List.map_cons, List.sum_cons, h a, ih, List.length_cons, Nat.add_comm]

theorem hands_batchPlan (pc : Postcard) (elapsed : Nat → Bool) (b : Batch) (sharedWriter : Bool) :
    ((batchPlan elapsed ⟨b, sharedWriter⟩).1.map (hands pc)).sum =
      ((inboundPlan elapsed ⟨b, sharedWriter || b.newConnection = some true⟩).1.map
        (hands pc)).sum := by
  simp only [batchPlan, frameworkPlan, List.map_append, List.sum_append]
  rw [hands_eq_zero fun _ => rfl, hands_eq_zero fun _ => rfl, hands_eq_zero fun _ => rfl,
    hands_eq_zero fun _ => rfl, hands_eq_zero fun _ => rfl, hands_eq_zero fun _ => rfl,
    hands_eq_zero fun _ => rfl, hands_eq_zero fun _ => rfl]
  simp only [Nat.zero_add]

theorem hands_inboundPlan (pc : Postcard) (elapsed : Nat → Bool) (state : LoopState) :
    let b := state.batch
    let requests := portion b.revokedSessions elapsed (fun r => r.1) 0 b.requests
    let notifications :=
      portion b.revokedSessions elapsed (fun n => n.1) requests.2.1 b.notifications
    ((inboundPlan elapsed state).1.map (hands pc)).sum =
      requests.1.length + if requests.2.2 = [] then notifications.1.length else 0 := by
  have hrequest (as : List (UInt16 × Token × Bytes)) :
      ((as.map (requestAct state.sharedWriter)).map (hands pc)).sum = as.length :=
    hands_eq_length (fun _ => rfl) as
  have hnotification (as : List (UInt16 × Bytes)) :
      ((as.map notificationAct).map (hands pc)).sum = as.length :=
    hands_eq_length (fun _ => rfl) as
  intro b requests notifications
  rw [inboundPlan]
  dsimp only
  by_cases hleft : requests.2.2 = []
  · rw [if_neg (not_not.mpr hleft), if_pos hleft]
    split
    · rw [List.map_append, List.sum_append, hrequest, hnotification]
    · rw [List.map_append, List.map_append, List.sum_append, List.sum_append, hrequest,
        hnotification]
      split <;> rfl
  · rw [if_pos hleft, if_neg hleft, hrequest, Nat.add_zero]

/-- The limit is reached with the very last request, and the loop over the
notifications checks it only behind the first of them. -/
structure Overruns (b : Batch) : Prop where
  full : (live b.revokedSessions (fun r => r.1) b.requests).length = defaultBatchMsgLimit
  last : ∃ r, b.requests.getLast? = some r ∧ r.1 ∉ b.revokedSessions
  more : ∃ n ∈ b.notifications, n.1 ∉ b.revokedSessions

variable {b : Batch}

theorem hands_le_of_not_overruns (pc : Postcard) (elapsed : Nat → Bool) (sharedWriter : Bool)
    (h : ¬ Overruns b) :
    ((inboundPlan elapsed ⟨b, sharedWriter⟩).1.map (hands pc)).sum ≤ defaultBatchMsgLimit := by
  have hvalue : defaultBatchMsgLimit = 64 := rfl
  obtain ⟨hrequests, hlimit⟩ := portion_count b.revokedSessions (fun r => r.1) elapsed 0 b.requests
  rw [hands_inboundPlan]
  dsimp only
  split
  next hleft =>
    obtain ⟨hnotifications, hlimit'⟩ := portion_count b.revokedSessions (fun n => n.1) elapsed
      (portion b.revokedSessions elapsed (fun r => r.1) 0 b.requests).2.1 b.notifications
    by_cases hfull : (portion b.revokedSessions elapsed (fun r => r.1) 0 b.requests).2.1 =
        defaultBatchMsgLimit
    · -- The limit is reached, so a notification would be one too many.
      have hnone : (portion b.revokedSessions elapsed (fun n => n.1) (portion b.revokedSessions
          elapsed (fun r => r.1) 0 b.requests).2.1 b.notifications).1 = [] := by
        by_contra hne
        obtain ⟨n, hn⟩ := List.exists_mem_of_ne_nil _ hne
        refine h ⟨?_, last_of_portion (Nat.zero_lt_succ 63) hleft hfull, n, mem_portion hn⟩
        rw [← portion_eq_live hleft]
        omega
      rw [hnone, List.length_nil]
      omega
    · omega
  · omega

theorem hands_of_overruns (pc : Postcard) (sharedWriter : Bool) (h : Overruns b) :
    ((inboundPlan (fun _ => false) ⟨b, sharedWriter⟩).1.map (hands pc)).sum =
      defaultBatchMsgLimit + 1 := by
  have hvalue : defaultBatchMsgLimit = 64 := rfl
  have hrequests := portion_full (Nat.zero_lt_succ 63) ((Nat.zero_add _).trans h.full) h.last
  obtain ⟨hcount, -⟩ :=
    portion_count b.revokedSessions (fun r => r.1) (fun _ => false) 0 b.requests
  have hmore : 1 ≤ (portion b.revokedSessions (fun _ => false) (fun n => n.1) defaultBatchMsgLimit
      b.notifications).1.length := portion_pos h.more
  obtain ⟨hcount', hlimit'⟩ := portion_count b.revokedSessions (fun n => n.1) (fun _ => false)
    defaultBatchMsgLimit b.notifications
  rw [hands_inboundPlan]
  dsimp only
  rw [hrequests] at hcount ⊢
  rw [if_pos rfl]
  dsimp only at hcount ⊢
  omega

def isOp : Act → Bool
  | .op _ => true
  | _ => false

def Splits (plan : List Act) : Prop :=
  ∃ acts last, plan = acts ++ last ∧ (∀ act ∈ acts, isOp act) ∧
    ∀ pc, (last.map (hands pc)).sum = 0

theorem isOp_map {α : Type} {f : α → Act} (h : ∀ a, isOp (f a)) (as : List α) :
    ∀ act ∈ as.map f, isOp act := by
  intro act hact
  obtain ⟨a, -, rfl⟩ := List.mem_map.mp hact
  exact h a

theorem Splits.append {acts plan : List Act} (hacts : ∀ act ∈ acts, isOp act)
    (h : Splits plan) : Splits (acts ++ plan) := by
  obtain ⟨acts', last, rfl, hacts', hlast⟩ := h
  exact ⟨acts ++ acts', last, (List.append_assoc ..).symm,
    List.forall_mem_append.mpr ⟨hacts, hacts'⟩, hlast⟩

theorem Splits.last {plan : List Act} (h : ∀ pc, (plan.map (hands pc)).sum = 0) : Splits plan :=
  ⟨[], plan, rfl, nofun, h⟩

theorem splits_inboundPlan (elapsed : Nat → Bool) (state : LoopState) :
    Splits (inboundPlan elapsed state).1 := by
  have hnil : Splits [] := Splits.last fun _ => rfl
  rw [inboundPlan]
  dsimp only
  split
  · rw [← List.append_nil (List.map ..)]
    exact Splits.append (isOp_map (fun _ => rfl) _) hnil
  · split
    · rw [← List.append_nil (List.map notificationAct _)]
      exact Splits.append (isOp_map (fun _ => rfl) _)
        (Splits.append (isOp_map (fun _ => rfl) _) hnil)
    · refine Splits.append (isOp_map (fun _ => rfl) _)
        (Splits.append (isOp_map (fun _ => rfl) _) (Splits.last fun pc => ?_))
      split <;> rfl

theorem splits_batchPlan (elapsed : Nat → Bool) (state : LoopState) :
    Splits (batchPlan elapsed state).1 := by
  have hframework : ∀ act ∈ frameworkPlan state.batch, isOp act := by
    simp only [frameworkPlan, List.forall_mem_append]
    exact ⟨isOp_map (fun _ => rfl) _, isOp_map (fun _ => rfl) _, isOp_map (fun _ => rfl) _,
      isOp_map (fun _ => rfl) _, isOp_map (fun _ => rfl) _, isOp_map (fun _ => rfl) _⟩
  refine Splits.append (isOp_map (fun _ => rfl) _) (Splits.append hframework ?_)
  exact Splits.append (isOp_map (fun _ => rfl) _) (splits_inboundPlan elapsed _)

end Batches

section Quiet

/-- A looper that goes on whatever it is told: all its requests are those of threads
that wait. -/
structure Quiet (core : LooperCore Unit) : Prop where
  exited : core.exited = false
  poisoned : core.poisoned = false
  entries : ∀ key entry, core.dispatch.entries.lookup key = some entry → entry = SyncRequest.entry
  asyncEntries : ∀ key, core.dispatch.asyncEntries.lookup key = none

theorem quiet_new : Quiet (LooperCore.new () ⟨1⟩) :=
  ⟨rfl, rfl, nofun, fun _ => rfl⟩

def Goes {α : Type} (m : Loop Unit α) (result : α) : Prop :=
  ∀ core, Quiet core → Ends m core fun o core' => o = .done result ∧ Quiet core'

theorem Goes.bind {α β : Type} {m : Loop Unit α} {f : α → Loop Unit β} {a : α} {b : β}
    (hm : Goes m a) (hf : Goes (f a) b) : Goes (m >>= f) b := by
  intro core hcore
  refine Ends.seq (hm core hcore) ?_ fun _ h => nomatch h.1
  rintro a' core' ⟨ha, hcore'⟩
  obtain rfl : a' = a := by
    cases ha
    rfl
  exact hf core' hcore'

theorem Goes.pure {α : Type} (a : α) : Goes (Pure.pure a) a := fun _ hcore => ⟨rfl, hcore⟩

theorem goes_forEach {α : Type} {f : α → Loop Unit Unit} (h : ∀ a, Goes (f a) ()) (as : List α) :
    Goes (Code.forEach f as) () := by
  induction as with
  | nil => exact Goes.pure ()
  | cons a as ih => exact Goes.bind (h a) ih

theorem Quiet.removeEntry {core : LooperCore Unit} (h : Quiet core) (key : PeerScope × Token) :
    Quiet (removeEntry key core) :=
  ⟨h.exited, h.poisoned, fun _ entry hentry => h.entries _ entry (lookup_of_lookup_erase hentry).2,
    h.asyncEntries⟩

theorem goes_invoke (call : Call) :
    Goes (invoke (Env.idle postcard) call fun h => .ret h .cont) .cont :=
  fun _ h => ⟨rfl, h.exited, h.poisoned, h.entries, h.asyncEntries⟩

theorem goes_dispatch (call : Call) :
    Goes (dispatch (Env.idle postcard) call fun h => .ret h .cont) .cont := by
  intro core hcore
  apply Ends.gets
  rw [hcore.exited]
  apply Ends.bind
  apply Ends.catchUnwind
  apply (goes_invoke call core hcore).mono
  rintro o core' ⟨rfl, hcore'⟩
  exact ⟨rfl, hcore'⟩

theorem ends_fire (token : Token) (call : Call) {code : DispatchEntry Unit → Unit → Callback Unit}
    (hcode : code SyncRequest.entry = fun h => .ret h .cont) (event : Event)
    {core : LooperCore Unit} (hcore : Quiet core) :
    Ends (fire (Env.idle postcard) token call code event) core fun o core' =>
      (o = .done (some .cont) ∨ o = .done none) ∧ Quiet core' := by
  apply Ends.gets
  apply Ends.gets
  cases hentry : core.dispatch.entries.lookup (core.primaryConnection, token) with
  | some entry =>
    apply Ends.modify
    rw [hcore.entries _ entry hentry, hcode]
    refine Ends.seq (goes_invoke call _ (hcore.removeEntry _)) ?_ fun _ h => nomatch h.1
    rintro flow core' ⟨hflow, hcore'⟩
    cases hflow
    exact ⟨.inl rfl, hcore'⟩
  | none =>
    apply Ends.gets
    rw [hcore.asyncEntries]
    exact ⟨.inr rfl, hcore⟩

theorem goes_dispatchResolution (token : Token) (call : Call)
    {code : DispatchEntry Unit → Unit → Callback Unit}
    (hcode : code SyncRequest.entry = fun h => .ret h .cont) (event : Event) :
    Goes (dispatchResolution (Env.idle postcard) token
      (fire (Env.idle postcard) token call code event)) .cont := by
  intro core hcore
  apply Ends.bind
  apply Ends.catchUnwind
  apply (ends_fire token call hcode event hcore).mono
  rintro o core' ⟨rfl | rfl, hcore'⟩
  · exact ⟨rfl, hcore'.exited, hcore'.poisoned, hcore'.entries, hcore'.asyncEntries⟩
  · exact ⟨rfl, hcore'⟩

theorem goes_failToken (token : Token) : Goes (failToken (Env.idle postcard) token) () := by
  intro core hcore
  refine Ends.seq (ends_fire token (.onFailed token) rfl (.rejected token) hcore) ?_ ?_
  · exact fun _ _ h => ⟨rfl, h.2⟩
  · rintro _ ⟨h | h, -⟩
    · nomatch h
    · nomatch h

theorem goes_cascade
    (failure : TokenOrder → ActiveSession → List (PeerScope × Token) × ActiveSession) :
    Goes (cascade (Env.idle postcard) failure) () := by
  intro core hcore
  apply Ends.gets
  apply Ends.modify
  exact goes_forEach goes_failToken _ _
    ⟨hcore.exited, hcore.poisoned, hcore.entries, hcore.asyncEntries⟩

theorem goes_trySend (service : UInt16) (payload : Bytes) :
    Goes (trySend (Env.idle postcard) service payload) (.ok ()) :=
  fun _ h => ⟨rfl, h.exited, h.poisoned, h.entries, h.asyncEntries⟩

theorem goes_lockEnqueues (f : HashSet UInt16 → HashSet UInt16) : Goes (lockEnqueues f) () := by
  intro core hcore
  apply Ends.gets
  rw [hcore.poisoned]
  exact ⟨rfl, hcore.exited, hcore.poisoned, hcore.entries, hcore.asyncEntries⟩

theorem goes_insert (sessionId : UInt16) (core : LooperCore Unit) (hcore : Quiet core) :
    Ends (CoreRequest.insert sessionId SyncRequest.entry) core fun o core' =>
      (∃ token, o = .done token) ∧ Quiet core' := by
  refine ⟨⟨_, rfl⟩, hcore.exited, hcore.poisoned, fun key entry hentry => ?_, hcore.asyncEntries⟩
  have hlookup := (lookup_insert ..).symm.trans hentry
  split at hlookup
  · exact (Option.some.inj hlookup).symm
  · exact hcore.entries key entry hlookup

theorem goes_processSyncRequest (req : SyncRequest) :
    Goes (processSyncRequest (Env.idle postcard) req) () := by
  intro core hcore
  refine Ends.seq (goes_insert req.sessionId core hcore) ?_ ?_
  · intro token core' h
    exact ⟨rfl, h.2.exited, h.2.poisoned, h.2.entries, h.2.asyncEntries⟩
  · rintro _ ⟨⟨token, h⟩, -⟩
    nomatch h

theorem goes_lifecycle (msg : LifecycleMessage) :
    Goes (dispatchLifecycle (Env.idle postcard) msg) .cont := by
  cases msg <;> exact goes_dispatch _

theorem goes_connectSubscriber (sessionId : UInt16) :
    Goes (connectSubscriber (Env.idle postcard) sessionId) .cont :=
  Goes.bind (goes_lockEnqueues _) <| Goes.bind (goes_dispatch _) <|
    Goes.bind (goes_lockEnqueues _) (Goes.pure DispatchOutcome.cont)

theorem goes_notification (sessionId : UInt16) (inner : Bytes) :
    Goes (dispatchNotification (Env.idle postcard) sessionId inner) .cont :=
  fun _ h => ⟨rfl, h.exited, h.poisoned, h.entries, h.asyncEntries⟩

theorem goes_request (direct : Bool) (sessionId : UInt16) (token : Token) (inner : Bytes) :
    Goes (dispatchRequestWithContext (Env.idle postcard) direct sessionId token inner) .cont :=
  fun _ h => ⟨rfl, h.exited, h.poisoned, h.entries, h.asyncEntries⟩

theorem goes_frame (direct : Bool) (sessionId : UInt16) (frame : ServiceFrame) :
    Goes (dispatchFrame (Env.idle postcard) direct sessionId frame) .cont := by
  cases frame with
  | reply token bytes => exact goes_dispatchResolution token _ rfl _
  | failed token => exact goes_dispatchResolution token _ rfl _
  | request token inner => exact goes_request direct sessionId token inner
  | notification inner => exact goes_notification sessionId inner

theorem goes_exec (op : Op) : Goes (op.exec (Env.idle postcard)) .cont := by
  cases op with
  | syncRequest req => exact Goes.bind (goes_processSyncRequest req) (Goes.pure _)
  | service direct sessionId frame => exact goes_frame direct sessionId frame
  | tearDown sessionId reason => exact Goes.bind (goes_cascade _) (goes_dispatch _)
  | connectSubscriber sessionId => exact goes_connectSubscriber sessionId
  | write payload =>
    have hsend : Goes (do let _ ← trySend (Env.idle postcard) 0 payload) () :=
      Goes.bind (goes_trySend 0 payload) (Goes.pure ())
    exact Goes.bind hsend (Goes.pure _)
  | handle msg =>
    cases msg with
    | newConnection registers => exact Goes.pure _
    | localRevoke sessionId =>
      exact Goes.bind (Goes.bind (goes_trySend 0 _) (Goes.pure ())) (Goes.pure _)
    | service sessionId payload =>
      have hexec : Op.exec (Env.idle postcard) (.handle (.service sessionId payload)) =
          dispatchService (Env.idle postcard) sessionId payload := rfl
      rw [hexec, dispatchService]
      cases (Env.idle postcard).pc.frameFromBytes payload with
      | none => exact Goes.pure _
      | some frame =>
        have hframe := goes_frame false sessionId frame
        cases frame <;> exact hframe
    | control msg =>
      cases msg with
      | lifecycle msg => exact goes_lifecycle msg
      | paneExited address reason => exact goes_dispatch _
      | serviceTeardown sessionId reason => exact Goes.bind (goes_cascade _) (Goes.pure _)
      | _ => exact Goes.pure _

theorem goes_execAll {acts : List Act} (h : ∀ act ∈ acts, isOp act) :
    Goes (execAll (Env.idle postcard) acts) none := by
  induction acts with
  | nil => exact Goes.pure none
  | cons act acts ih =>
    rw [List.forall_mem_cons] at h
    cases act with
    | op op => exact Goes.bind (Goes.bind (goes_exec op) (Goes.pure none)) (ih h.2)
    | close => nomatch h.1
    | fail => nomatch h.1

theorem le_handedIn_execAll {plan : List Act} (h : Splits plan) {core : LooperCore Unit}
    (hcore : Quiet core) :
    handedIn core + (plan.map (hands postcard)).sum ≤
      handedIn (execAll (Env.idle postcard) plan core).2 := by
  obtain ⟨acts, last, rfl, hacts, hlast⟩ := h
  have hgoes := goes_execAll hacts core hcore
  have hcount : handedIn (execAll (Env.idle postcard) acts core).2 =
      handedIn core + (acts.map (hands postcard)).sum := (handedIn_execAll _ acts core).2 hgoes.1
  have hgrown (core : LooperCore Unit) :
      Grown core (execAll (Env.idle postcard) last core).2 :=
    (related_of_visited (Env.idle postcard) (grown_act _) last core).1
  rw [execAll_append, Code.orNext, List.map_append, List.sum_append, hlast, Nat.add_zero, ← hcount]
  unfold Ends at hgoes
  cases hexec : execAll (Env.idle postcard) acts core with
  | mk o core' =>
    rw [hexec] at hgoes
    obtain rfl : o = .done none := hgoes.1
    exact (hgrown core').sublist.countP_le

end Quiet

/-- Only when the limit is reached with the very last request, and a notification
waits behind it, can a batch hand over more frames than the limit. -/
theorem phase_five_bounded_iff (b : Batch) :
    (∀ (H : Type) (env : Env H) (elapsed : Nat → Bool) (sharedWriter : Bool) (core : LooperCore H),
      handedIn (dispatchBatch env elapsed ⟨b, sharedWriter⟩ core).2 ≤
        handedIn core + defaultBatchMsgLimit) ↔
    ¬ Overruns b := by
  constructor
  · intro h hover
    have hle := h Unit (Env.idle postcard) (fun _ => false) false (LooperCore.new () ⟨1⟩)
    have hge := le_handedIn_execAll (splits_batchPlan (fun _ => false) ⟨b, false⟩) quiet_new
    rw [dispatchBatch_snd] at hle
    rw [hands_batchPlan, hands_of_overruns postcard _ hover] at hge
    omega
  · intro h H env elapsed sharedWriter core
    have hle := (handedIn_execAll env (batchPlan elapsed ⟨b, sharedWriter⟩).1 core).1
    have hlimit := hands_le_of_not_overruns env.pc elapsed
      (sharedWriter || b.newConnection = some true) h
    rw [dispatchBatch_snd]
    rw [hands_batchPlan] at hle
    omega

def fullBatch : Batch :=
  { Batch.new with
    requests := List.replicate 64 (5, 0, [])
    notifications := [(5, [])] }

/-- All of them are handed over in one tick. -/
theorem fullBatch_handed :
    handedIn (LooperCore.new () ⟨1⟩) = 0 ∧
    handedIn (dispatchBatch (Env.idle postcard) (fun _ => false) ⟨fullBatch, false⟩
      (LooperCore.new () ⟨1⟩)).2 = defaultBatchMsgLimit + 1 := by
  decide +kernel

end Pane.BatchLimit
