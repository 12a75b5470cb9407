import Pane.CoreSteps
import Pane.PostcardFormat

namespace Pane.AnsweredRequests

open Pane.HashTable Pane.Messages Pane.Correlator Pane.Callbacks Pane.Unwinding Pane.LooperState
open Pane.CoreDispatch Pane.CoreRequest Pane.Looper Pane.CoreRuns Pane.CoreSteps
open Pane.PostcardFormat (postcard postcard_frame)

variable {H : Type} (env : Env H)

/-- What user code does with a reply port wherever it keeps it: in the handler,
which is dropped after the looper has ended, or on another thread. -/
def usesPort : Effect → Bool
  | .reply .. => true
  | .dropPort .. => true
  | _ => false

/-- The states of a core and of the ports that it has opened: the looper acts,
also for the last time, or a port is used outside of it. -/
inductive Reached : LooperCore H → Prop
  | new (handler : H) (primaryConnection : PeerScope) :
    Reached (LooperCore.new handler primaryConnection)
  | exec {core : LooperCore H} (op : Op) (hcore : Reached core) : Reached (op.exec env core).2
  | channelClosed {core : LooperCore H} (hcore : Reached core) : Reached (channelClosed env core).2
  | infraError {core : LooperCore H} (hcore : Reached core) : Reached (infraError env core).2
  | elsewhere {core : LooperCore H} (call : Call) (effect : Effect) (heffect : usesPort effect)
    (hcore : Reached core) : Reached (perform env call effect core).2

variable {core core' : LooperCore H}

theorem leaves_of_reached {α : Type} {exit : α → Option ExitReason} {m : Loop H α}
    (h : Reached env (m core).2) :
    Ends m core (Leaves exit (Reached env) (fun _ => Reached env) (Reached env)) := by
  unfold Ends Leaves
  split
  · exact h
  · split <;> exact h

theorem rules_reached : Rules env (Reached env) (fun _ => Reached env) (Reached env) where
  exec op _ hcore := leaves_of_reached env (.exec op hcore)
  channelClosed _ hcore := leaves_of_reached env (.channelClosed hcore)
  infraError _ hcore := leaves_of_reached env (.infraError hcore)

theorem reached_of_leaves {α : Type} {exit : α → Option ExitReason} {m : Loop H α}
    (h : Ends m core (Leaves exit (Reached env) (fun _ => Reached env) (Reached env))) :
    Reached env (m core).2 := by
  unfold Ends Leaves at h
  split at h
  · exact h
  · split at h <;> exact h

theorem reached_coreRun (msgs : List LooperMessage) (hcore : Reached env core) :
    Reached env (CoreRequest.run env msgs core).2 :=
  reached_of_leaves env ((rules_reached env).coreRun msgs hcore)

theorem reached_looperRun (setupFails : Bool) (ticks : List Tick) (hcore : Reached env core) :
    Reached env (Looper.run env setupFails ticks core).2 :=
  reached_of_leaves env ((rules_reached env).looperRun setupFails ticks hcore)

section Accounts

variable (pc : Postcard) (s : UInt16) (t : Token)

def isAnswer (payload : Bytes) : Bool :=
  match pc.frameFromBytes payload with
  | some (.reply t' _) => t' = t
  | some (.failed t') => t' = t
  | _ => false

def asks : Event → Bool
  | .handed s' (.request t' _) => s' = s ∧ t' = t
  | _ => false

def answers : Event → Bool
  | .sent s' payload => s' = s ∧ isAnswer pc t payload
  | _ => false

/-- An answer does not: the channel refuses it, or its value does not serialize. -/
def loses : Event → Bool
  | .refused s' payload => s' = s ∧ isAnswer pc t payload
  | .replyLost s' t' => s' = s ∧ t' = t
  | _ => false

/-- How many requests with this token were dispatched on the session. -/
def asked (core : LooperCore H) : Nat := core.trace.countP (asks s t)

def answered (core : LooperCore H) : Nat := core.trace.countP (answers pc s t)

def lost (core : LooperCore H) : Nat := core.trace.countP (loses pc s t)

/-- How many ports for such a request were neither used nor dropped yet. -/
def waiting (core : LooperCore H) : Nat := core.ports.entries.countP fun port => port.2 = (s, t)

structure Balanced (core : LooperCore H) : Prop where
  fresh : ∀ port ∈ core.ports, port < core.trace.length
  balance : ∀ s t, s ≠ 0 →
    answered pc s t core + lost pc s t core + waiting s t core = asked s t core

theorem isNote_counts {granted : UInt16 → ServiceFrame → Prop} {es : List Event}
    (hes : ∀ e ∈ es, IsNote granted e) :
    es.countP (asks s t) = 0 ∧ es.countP (answers pc s t) = 0 ∧ es.countP (loses pc s t) = 0 := by
  refine ⟨?_, ?_, ?_⟩
  all_goals
    rw [List.countP_eq_zero]
    intro e he
    have hnote := hes e he
    revert hnote
    cases e with
    | handed s' frame => cases frame <;> simp [IsNote, asks, answers, loses]
    | _ => simp [IsNote, asks, answers, loses]

variable {pc s t}

theorem waiting_insert {port : PortId} {s' : UInt16} {t' : Token} (hfresh : port ∉ core.ports)
    (hports : core'.ports = core.ports.insert port (s', t')) :
    waiting s t core' = waiting s t core + if s' = s ∧ t' = t then 1 else 0 := by
  unfold waiting
  rw [hports, AList.entries_insert_of_notMem hfresh, List.countP_cons]
  simp

theorem waiting_erase {port : PortId} {s' : UInt16} {t' : Token}
    (hport : core.ports.lookup port = some (s', t')) (hports : core'.ports = core.ports.erase port) :
    waiting s t core = waiting s t core' + if s' = s ∧ t' = t then 1 else 0 := by
  unfold waiting
  rw [(perm_erase hport).countP_eq, hports, List.countP_cons]
  simp

theorem Balanced.extend {es : List Event} (h : Balanced pc core)
    (htrace : core'.trace = core.trace ++ es)
    (hfresh : ∀ port ∈ core'.ports, port ∈ core.ports ∨ port < core'.trace.length)
    (hcount : ∀ s t, s ≠ 0 → es.countP (answers pc s t) + es.countP (loses pc s t) +
      waiting s t core' = es.countP (asks s t) + waiting s t core) : Balanced pc core' := by
  constructor
  · intro port hport
    obtain hold | hnew := hfresh port hport
    · rw [htrace, List.length_append]
      exact Nat.lt_add_right _ (h.fresh port hold)
    · exact hnew
  · intro s t hs
    have hbalance := h.balance s t hs
    have hes := hcount s t hs
    unfold answered lost asked at hbalance ⊢
    rw [htrace, List.countP_append, List.countP_append, List.countP_append]
    omega

theorem countP_offer (pc : Postcard) (s : UInt16) (t : Token) (accepted : Bool) (s' : UInt16) (payload : Bytes) :
    [offer accepted s' payload].countP (answers pc s t) +
        [offer accepted s' payload].countP (loses pc s t) =
      [offer accepted s' payload].countP (asks s t) +
        if s' = s ∧ isAnswer pc t payload then 1 else 0 := by
  cases accepted <;> simp [offer, asks, answers, loses, List.countP_singleton]

theorem Balanced.offer {accepted : Bool} {s' : UInt16} {payload : Bytes} (h : Balanced pc core)
    (es : List Event) (htrace : core'.trace = core.trace ++ (es ++ [offer accepted s' payload]))
    (hfresh : ∀ port ∈ core'.ports, port ∈ core.ports)
    (hcount : ∀ s t, s ≠ 0 → es.countP (answers pc s t) + es.countP (loses pc s t) +
      waiting s t core' + (if s' = s ∧ isAnswer pc t payload then 1 else 0) =
        es.countP (asks s t) + waiting s t core) : Balanced pc core' := by
  refine h.extend htrace (fun port hport => .inl (hfresh port hport)) fun s t hs => ?_
  have hes := hcount s t hs
  have hoffer := countP_offer pc s t accepted s' payload
  rw [List.countP_append, List.countP_append, List.countP_append]
  omega

theorem isAnswer_of_reply {t' : Token} {value payload : Bytes}
    (h : pc.frameFromBytes payload = some (.reply t' value)) : isAnswer pc t payload ↔ t' = t := by
  simp [isAnswer, h]

theorem isAnswer_of_failed {t' : Token} {payload : Bytes}
    (h : pc.frameFromBytes payload = some (.failed t')) : isAnswer pc t payload ↔ t' = t := by
  simp [isAnswer, h]

end Accounts

section Runs

variable {env} (hframes : env.pc.FrameRoundTrip)
include hframes

theorem frameFromBytes_of_toAllocvec {frame : ServiceFrame} {payload : Bytes}
    (h : env.pc.frameToAllocvec frame = some payload) :
    env.pc.frameFromBytes payload = some frame := by
  obtain ⟨payload', hto, hfrom⟩ := hframes frame
  obtain rfl : payload = payload' := Option.some.inj (h.symm.trans hto)
  exact hfrom

theorem balanced_step {granted : UInt16 → ServiceFrame → Prop} (h : Balanced env.pc core)
    (hstep : Step env granted core core') : Balanced env.pc core' := by
  have herased {port p : PortId} (hports : core'.ports = core.ports.erase port)
      (hp : p ∈ core'.ports) : p ∈ core.ports := by
    rw [hports, AList.mem_erase] at hp
    exact hp.2
  cases hstep.change with
  | noted es hes htrace hports =>
    refine h.extend htrace (fun _ hp => .inl (hports ▸ hp)) fun s t _ => ?_
    obtain ⟨hasks, hanswers, hloses⟩ := isNote_counts env.pc s t hes
    rw [hasks, hanswers, hloses, waiting, hports, waiting]
  | wrote accepted service payload hplain htrace hports =>
    refine h.offer [] htrace (fun _ hp => hports ▸ hp) fun s t hs => ?_
    have hno : ¬ (service = s ∧ isAnswer env.pc t payload) := by
      rintro ⟨rfl, hanswer⟩
      obtain rfl | ⟨inner, hinner⟩ := hplain
      · exact hs rfl
      · simp [isAnswer, frameFromBytes_of_toAllocvec hframes hinner] at hanswer
    simp [hno, waiting, hports]
  | installed s' t' hnew hnext htrace hports =>
    refine h.extend htrace (fun _ hp => .inl (hports ▸ hp)) fun s t _ => ?_
    simp [asks, answers, loses, waiting, hports]
  | requested accepted s' t' inner outer hnew hnext houter htrace hports =>
    refine h.offer [.installed t' s'] htrace (fun _ hp => hports ▸ hp) fun s t hs => ?_
    have hno : isAnswer env.pc t outer = false := by
      simp [isAnswer, frameFromBytes_of_toAllocvec hframes houter]
    simp [hno, asks, answers, loses, waiting, hports]
  | rejected accepted s' t' inner bytes _ hbytes htrace hports =>
    refine h.offer [.handed s' (.request t' inner)] htrace (fun _ hp => hports ▸ hp) fun s t hs => ?_
    have hanswer := isAnswer_of_failed (t := t) (frameFromBytes_of_toAllocvec hframes hbytes)
    simp only [hanswer, List.countP_singleton, asks, answers, loses, waiting, hports,
      decide_eq_true_eq, Bool.false_eq_true, if_false]
    omega
  | opened s' t' inner _ htrace hports =>
    have hfresh : core.trace.length + 1 ∉ core.ports := fun hp =>
      Nat.not_succ_lt_self (h.fresh _ hp)
    refine h.extend htrace ?_ fun s t hs => ?_
    · intro port hport
      rw [hports, AList.mem_insert] at hport
      obtain rfl | hport := hport
      · exact .inr (by simp [htrace])
      · exact .inl hport
    · rw [waiting_insert hfresh hports]
      simp only [List.countP_cons, List.countP_nil, asks, answers, loses, decide_eq_true_eq,
        Bool.false_eq_true, if_false]
      omega
  | answered accepted port s' t' value bytes hport hbytes htrace hports =>
    refine h.offer [.portAnswered port value] htrace (fun _ => herased hports) fun s t hs => ?_
    have hanswer := isAnswer_of_reply (t := t) (frameFromBytes_of_toAllocvec hframes hbytes)
    rw [waiting_erase hport hports]
    simp [hanswer, asks, answers, loses]
  | dropped accepted port s' t' bytes hport hbytes htrace hports =>
    refine h.offer [] htrace (fun _ => herased hports) fun s t hs => ?_
    have hanswer := isAnswer_of_failed (t := t) (frameFromBytes_of_toAllocvec hframes hbytes)
    rw [waiting_erase hport hports]
    simp [hanswer]
  | lost port s' t' hport htrace hports =>
    refine h.extend htrace (fun _ hp => .inl (herased hports hp)) fun s t hs => ?_
    rw [waiting_erase hport hports]
    simp only [List.countP_singleton, asks, answers, loses, decide_eq_true_eq, Bool.false_eq_true,
      if_false]
    omega

theorem balanced_steps {granted : UInt16 → ServiceFrame → Prop} (h : Balanced env.pc core)
    (hsteps : Steps env granted core core') : Balanced env.pc core' := by
  induction hsteps with
  | refl => exact h
  | tail _ hstep ih => exact balanced_step hframes ih hstep

theorem balanced_walks {α : Type} {granted : UInt16 → ServiceFrame → Prop} {m : Loop H α}
    (hm : Walks env granted m) (h : Balanced env.pc core) : Balanced env.pc (m core).2 :=
  balanced_steps hframes h (hm.always core)

omit hframes in
theorem balanced_new (handler : H) (primaryConnection : PeerScope) :
    Balanced env.pc (LooperCore.new handler primaryConnection) where
  fresh := by simp [LooperCore.new]
  balance := by simp [LooperCore.new, answered, lost, waiting, asked]

theorem balanced_reached (h : Reached env core) : Balanced env.pc core := by
  have hclosed : Walks env (fun _ _ => False) (channelClosed env) := walks_channelClosed hframes
  have hinfra : Walks env (fun _ _ => False) (infraError env) := walks_infraError hframes
  have hperform (call : Call) (effect : Effect) :
      Walks env (fun _ _ => False) (perform env call effect) := walks_perform hframes effect
  induction h with
  | new handler primaryConnection => exact balanced_new handler primaryConnection
  | exec op _ ih => exact balanced_walks hframes (walks_exec hframes op fun _ _ h => h) ih
  | channelClosed _ ih => exact balanced_walks hframes hclosed ih
  | infraError _ ih => exact balanced_walks hframes hinfra ih
  | elsewhere call effect _ _ ih => exact balanced_walks hframes (hperform call effect) ih

/-- Of the requests of a session, those whose port is gone were answered once,
exactly if no answer met a full channel or failed to serialize. -/
theorem requests_answered_once (h : Reached env core) :
    (∀ s t, s ≠ 0 → answered env.pc s t core + waiting s t core ≤ asked s t core) ∧
      ((∀ s t, s ≠ 0 → answered env.pc s t core + waiting s t core = asked s t core) ↔
        ∀ e ∈ core.trace, ∀ s t, s ≠ 0 → loses env.pc s t e = false) := by
  have hbalance := (balanced_reached hframes h).balance
  refine ⟨fun s t hs => by have := hbalance s t hs; omega, ?_, ?_⟩
  · intro hanswered e he s t hs
    have hlost : lost env.pc s t core = 0 := by
      have := hbalance s t hs
      have := hanswered s t hs
      omega
    exact Bool.eq_false_iff.mpr (List.countP_eq_zero.mp hlost e he)
  · intro hnone s t hs
    have hlost : lost env.pc s t core = 0 :=
      List.countP_eq_zero.mpr fun e he => Bool.eq_false_iff.mp (hnone e he s t hs)
    have := hbalance s t hs
    omega

end Runs

def echoing : RequestReceiver Unit where
  tag := 9
  receiveRequest body := some fun port h =>
    .act h (.plain (.reply port (some body))) fun _ => .ret h .cont

def storing : RequestReceiver Unit where
  tag := 9
  receiveRequest _ := some fun _ h => .ret h .stop

/-- Session 5 is served by the first, session 6 by the second of them. -/
def serving (trySend : Nat → Except Backpressure Unit) : Env Unit :=
  { Env.idle postcard with
    trySend
    serviceDispatch := ⟨∅, ((∅ : Table _ _).insert 5 echoing).insert 6 storing⟩ }

def servedThree : LooperCore Unit :=
  let env := serving fun _ => .ok ()
  let core := LooperCore.new () ⟨1⟩
  let core := ((Op.service false 5 (.request 7 [9, 1])).exec env core).2
  let core := ((Op.service false 4 (.request 7 [9, 1])).exec env core).2
  let core := ((Op.service false 6 (.request 8 [9, 1])).exec env core).2
  (perform env .disconnected (.dropPort 8) core).2

theorem requests_answered_once_of_three :
    waiting 6 8 servedThree = 0 ∧ asked 6 8 servedThree = 1 ∧
      ∀ s t, s ≠ 0 → answered postcard s t servedThree + waiting s t servedThree =
        asked s t servedThree := by
  have hreached : Reached (serving fun _ => .ok ()) servedThree :=
    .elsewhere _ _ rfl (.exec _ (.exec _ (.exec _ (.new () ⟨1⟩))))
  have htrace : servedThree.trace.all (fun e => match e with
      | .refused .. => false
      | .replyLost .. => false
      | _ => true) := by decide +kernel
  refine ⟨by decide +kernel, by decide +kernel, ?_⟩
  apply (requests_answered_once postcard_frame hreached).2.mpr
  intro e he s t _
  have := List.all_eq_true.mp htrace e he
  cases e <;> simp_all [loses]

/-- The channel is full when the handler replies: its port is used up, and no
frame will ever answer the request. -/
theorem answer_refused :
    let core := ((Op.service false 5 (.request 7 [9, 1])).exec
      (serving fun _ => .error .channelFull) (LooperCore.new () ⟨1⟩)).2
    Reached (serving fun _ => .error .channelFull) core ∧ asked 5 7 core = 1 ∧
      waiting 5 7 core = 0 ∧ answered postcard 5 7 core = 0 :=
  ⟨.exec _ (.new () ⟨1⟩), by decide +kernel, by decide +kernel, by decide +kernel⟩

end Pane.AnsweredRequests
