import Pane.RoutePipes

namespace Pane.Attempts

open Pane.HashTable Pane.Messages Pane.Routing Pane.Server Pane.ServerFrame Pane.ServerActor
open Pane.RouteSymmetry Pane.RouteTable Pane.Offers Pane.RoutePipes Pane.PostcardFormat

variable (pc : Postcard) (accepts : Nat → Bool)

section Growth

variable {P : List Attempt → List ConnectionId → Prop}

/-- What one more attempt does to the record of attempts and to the list of
connections to tear down. -/
def Grows (P : List Attempt → List ConnectionId → Prop) : Prop :=
  ∀ as overflowed f, P as overflowed → P (as ++ [⟨f, accepts as.length⟩])
    (if accepts as.length then overflowed else overflowed ++ [f.conn])

theorem grows_tryEnqueue (hP : Grows accepts P) {s : ServerState}
    (h : P s.attempts s.overflowTeardown) (conn : ConnectionId) (service : UInt16)
    (payload : Bytes) :
    P (s.tryEnqueue accepts conn service payload).attempts
      (s.tryEnqueue accepts conn service payload).overflowTeardown := by
  unfold ServerState.tryEnqueue
  split
  · exact hP _ _ _ h
  · exact h

theorem grows_enqueueControl (hP : Grows accepts P) {s : ServerState}
    (h : P s.attempts s.overflowTeardown) (conn : ConnectionId) (msg : ControlMessage) :
    P (s.enqueueControl pc accepts conn msg).attempts
      (s.enqueueControl pc accepts conn msg).overflowTeardown := by
  unfold ServerState.enqueueControl
  split
  · exact grows_tryEnqueue accepts hP h conn 0 _
  · exact h

theorem grows_foldl {α : Type} {f : ServerState → α → ServerState}
    (hf : ∀ s a, P s.attempts s.overflowTeardown → P (f s a).attempts (f s a).overflowTeardown)
    (l : List α) {s : ServerState} (h : P s.attempts s.overflowTeardown) :
    P (l.foldl f s).attempts (l.foldl f s).overflowTeardown := by
  induction l generalizing s with
  | nil => exact h
  | cons a l ih => exact ih (hf s a h)

theorem grows_notifyWatchers (hP : Grows accepts P) {s : ServerState}
    (h : P s.attempts s.overflowTeardown) (order : HashOrder) (conn : ConnectionId) :
    P (s.notifyWatchers pc accepts order conn).attempts
      (s.notifyWatchers pc accepts order conn).overflowTeardown := by
  unfold ServerState.notifyWatchers
  split
  · exact h
  · dsimp only
    split
    · exact h
    · split
      · exact h
      · apply grows_foldl
        · exact fun s watcher hs => grows_tryEnqueue accepts hP hs watcher 0 _
        · exact h

theorem grows_disconnect (hP : Grows accepts P) {s : ServerState}
    (h : P s.attempts s.overflowTeardown) (order : HashOrder) (conn : ConnectionId) :
    P (s.processDisconnect pc accepts order conn).attempts
      (s.processDisconnect pc accepts order conn).overflowTeardown := by
  have hwatchers := grows_notifyWatchers pc accepts hP h order conn
  unfold ServerState.processDisconnect
  apply grows_foldl
  · exact fun s peer hs => grows_enqueueControl pc accepts hP hs peer.1 _
  · unfold ServerState.forgetWatches
    split
    · exact hwatchers
    · exact hwatchers

theorem grows_processControl (hP : Grows accepts P) {s : ServerState}
    (h : P s.attempts s.overflowTeardown) (order : HashOrder) (conn : ConnectionId)
    (payload : Bytes) :
    P (s.processControl pc accepts order conn payload).attempts
      (s.processControl pc accepts order conn payload).overflowTeardown := by
  unfold ServerState.processControl
  split
  · unfold ServerState.declareInterest
    split
    · apply grows_enqueueControl pc accepts hP
      apply grows_enqueueControl pc accepts hP
      exact h
    · apply grows_enqueueControl pc accepts hP
      exact h
  · unfold ServerState.revokeInterest
    split
    · exact h
    · apply grows_enqueueControl pc accepts hP
      apply grows_enqueueControl pc accepts hP
      exact h
  · unfold ServerState.watch
    split
    · exact h
    · exact grows_enqueueControl pc accepts hP h conn _
  · unfold ServerState.unwatch
    split
    · exact h
    · exact h
  · exact h

theorem grows_exec (hP : Grows accepts P) {c : Call}
    (hdrain : c = .drain → ∀ as overflowed, P as overflowed → P as [])
    {s : ServerState} (h : P s.attempts s.overflowTeardown) :
    P (exec pc accepts s c).attempts (exec pc accepts s c).overflowTeardown := by
  cases c with
  | drain => exact hdrain rfl _ _ h
  | tearDown order conn => exact grows_disconnect pc accepts hP h order conn
  | event order event =>
    cases event with
    | newConnection conn hello => exact h
    | disconnected conn => exact grows_disconnect pc accepts hP h order conn
    | frame conn service payload =>
      simp only [exec, processEvent, ServerState.processFrame]
      split
      · exact grows_processControl pc accepts hP h order conn payload
      · unfold ServerState.processService
        split
        · exact grows_tryEnqueue accepts hP h _ _ payload
        · exact h

end Growth

/-- Frames that are offered one after the other, with the answers they get. -/
def answered : Nat → List Outbound → List Attempt
  | _, [] => []
  | n, f :: fs => ⟨f, accepts n⟩ :: answered (n + 1) fs

theorem answered_append (n : Nat) (fs gs : List Outbound) :
    answered accepts n (fs ++ gs) =
      answered accepts n fs ++ answered accepts (n + fs.length) gs := by
  induction fs generalizing n with
  | nil => rfl
  | cons f fs ih =>
    rw [List.cons_append, answered, ih, answered, List.cons_append, List.length_cons,
      Nat.add_right_comm, Nat.add_assoc]

theorem map_frame_answered (n : Nat) (fs : List Outbound) :
    (answered accepts n fs).map Attempt.frame = fs := by
  induction fs generalizing n with
  | nil => rfl
  | cons f fs ih => rw [answered, List.map_cons, ih]

theorem length_answered (n : Nat) (fs : List Outbound) : (answered accepts n fs).length = fs.length := by
  rw [← List.length_map (f := Attempt.frame), map_frame_answered]

def Answered (s : ServerState) : Prop := s.attempts = answered accepts 0 s.offered

theorem answered_new : Answered accepts Server.new := rfl

theorem answered_exec {s : ServerState} (h : Answered accepts s) (c : Call) :
    Answered accepts (exec pc accepts s c) := by
  apply grows_exec pc accepts (P := fun as _ => as = answered accepts 0 (as.map Attempt.frame)) _ _ h
  · intro as _ f has
    rw [List.map_append, answered_append, ← has, List.length_map, Nat.zero_add]
    rfl
  · exact fun _ _ _ has => has

def offers (s : ServerState) (c : Call) : List Outbound :=
  tell pc s.toRoutingState (notices pc s c) ++ forwards s c

theorem attempts_of_call {s : ServerState} (hs : Symmetric s.toRoutingState)
    (h : Answered accepts s) (c : Call) :
    (exec pc accepts s c).attempts =
      s.attempts ++ answered accepts s.attempts.length (offers pc s c) := by
  have hafter : (exec pc accepts s c).attempts =
      answered accepts 0 (exec pc accepts s c).offered := answered_exec pc accepts h c
  have hbefore : s.attempts = answered accepts 0 s.offered := h
  rw [hafter, offered_exec pc accepts hs, answered_append, ← hbefore, ServerState.offered,
    List.length_map, Nat.zero_add, offers]

def refusals (attempts : List Attempt) : List ConnectionId :=
  (attempts.filter (fun a => a.accepted = false)).map (fun a => a.frame.conn)

theorem overflowed_of_call {s : ServerState} {c : Call} (hs : Symmetric s.toRoutingState)
    (h : Answered accepts s) (hc : c ≠ .drain) :
    (exec pc accepts s c).overflowTeardown = s.overflowTeardown ++
      refusals (answered accepts s.attempts.length (offers pc s c)) := by
  have hgrown : ∃ new, (exec pc accepts s c).attempts = s.attempts ++ new ∧
      (exec pc accepts s c).overflowTeardown = s.overflowTeardown ++ refusals new := by
    apply grows_exec pc accepts (P := fun as overflowed => ∃ new, as = s.attempts ++ new ∧
      overflowed = s.overflowTeardown ++ refusals new)
    · rintro as overflowed f ⟨new, rfl, rfl⟩
      refine ⟨new ++ [⟨f, accepts (s.attempts ++ new).length⟩], List.append_assoc _ _ _, ?_⟩
      cases hok : accepts (s.attempts ++ new).length <;> simp [refusals]
    · exact fun he => absurd he hc
    · exact ⟨[], by simp, by simp [refusals]⟩
  obtain ⟨new, hnew, hoverflowed⟩ := hgrown
  rw [attempts_of_call pc accepts hs h] at hnew
  rw [hoverflowed, List.append_cancel_left hnew]

theorem stepCalls_of_refusals {s : ServerState} (hs : Symmetric s.toRoutingState)
    (h : Answered accepts s) (hoverflow : s.overflowTeardown = []) (input : Input)
    {conns : List ConnectionId} (hconns : refusals (answered accepts s.attempts.length
      (offers pc s (.event input.order input.event))) = conns) :
    stepCalls pc accepts s input = .event input.order input.event :: if conns = [] then []
      else .drain :: (firstOccurrences conns []).map (.tearDown input.order) := by
  have hoverflowed : (processEvent pc accepts input.order s input.event).overflowTeardown = conns := by
    have hcall := overflowed_of_call pc accepts (c := .event input.order input.event) hs h nofun
    rw [hoverflow, hconns] at hcall
    exact hcall
  simp only [stepCalls, hoverflowed]

theorem answered_execs {s : ServerState} (h : Answered accepts s) (cs : List Call) :
    Answered accepts (execs pc accepts cs s) := by
  induction cs generalizing s with
  | nil => exact h
  | cons c cs ih => exact ih (answered_exec pc accepts h c)

def offersOf (s : ServerState) (cs : List Call) : List Outbound :=
  (history pc accepts s cs).flatMap (fun p => offers pc p.1 p.2)

theorem attempts_of_calls {known : List ConnectionId} {s : ServerState} {cs : List Call}
    (hs : Sound known s.toRoutingState) (hcs : Legal known cs) (h : Answered accepts s) :
    (execs pc accepts cs s).attempts =
      s.attempts ++ answered accepts s.attempts.length (offersOf pc accepts s cs) := by
  induction cs generalizing known s with
  | nil => simp [offersOf, history, answered]
  | cons c cs ih =>
    have hcall := attempts_of_call pc accepts hs.symmetric h c
    have hoffers : offersOf pc accepts s (c :: cs) =
        offers pc s c ++ offersOf pc accepts (exec pc accepts s c) cs := List.flatMap_cons
    rw [execs_cons, ih (sound_exec pc accepts hs hcs.1) hcs.2 (answered_exec pc accepts h c), hcall,
      hoffers, answered_append, List.append_assoc, List.length_append, length_answered]

theorem answered_actorLoop (inputs : List Input) :
    Answered accepts (actorLoop pc accepts inputs) := by
  rw [actorLoop_eq]
  exact answered_execs pc accepts (answered_new accepts) _

/-- What happens to the writer channels: the actor offers a frame, or the writer
thread of a connection takes the oldest one. -/
inductive ChannelEvent
  | offer (attempt : Attempt)
  | take (conn : ConnectionId)

def ChannelEvent.attempt : ChannelEvent → Option Attempt
  | .offer a => some a
  | .take _ => none

def writerChannelCapacity : Nat := 4096

def Answering : (ConnectionId → Nat) → List ChannelEvent → Prop
  | _, [] => True
  | fill, .take conn :: es =>
    0 < fill conn ∧ Answering (Function.update fill conn (fill conn - 1)) es
  | fill, .offer a :: es =>
    (a.accepted = true ↔ fill a.frame.conn < writerChannelCapacity) ∧
      Answering (if a.accepted then Function.update fill a.frame.conn (fill a.frame.conn + 1)
        else fill) es

/-- The answers are those of bounded channels that are drained at some moments. -/
def Bounded (attempts : List Attempt) : Prop :=
  ∃ es, es.filterMap ChannelEvent.attempt = attempts ∧ Answering (fun _ => 0) es

theorem answering_fill {fill : ConnectionId → Nat} {f : Outbound} {es : List ChannelEvent} (n : Nat)
    (hroom : fill f.conn + n ≤ writerChannelCapacity)
    (h : Answering (Function.update fill f.conn (fill f.conn + n)) es) :
    Answering fill (List.replicate n (.offer ⟨f, true⟩) ++ es) := by
  induction n generalizing fill with
  | zero => simpa using h
  | succ n ih =>
    refine ⟨⟨fun _ => by show fill f.conn < _; omega, fun _ => rfl⟩, ih ?_ ?_⟩
    · rw [if_pos rfl, Function.update_self]
      show fill f.conn + 1 + n ≤ writerChannelCapacity
      omega
    · rw [if_pos rfl, Function.update_idem, Function.update_self, Nat.add_assoc, Nat.add_comm 1 n]
      exact h

theorem orderly_flood {known : List ConnectionId} {conn : ConnectionId} {rest : List Input}
    (service : UInt16) (payload : Bytes) (order : HashOrder) (n : Nat) (hconn : conn ∈ known)
    (h : Orderly known rest) :
    Orderly known (List.replicate n ⟨.frame conn service payload, order⟩ ++ rest) := by
  induction n with
  | zero => exact h
  | succ n ih => exact ⟨hconn, ih⟩

def plus (s : ServerState) (more : List Attempt) : ServerState :=
  { s with attempts := s.attempts ++ more }

theorem foldl_flood (s : ServerState) (conn : ConnectionId) (service : UInt16) (payload : Bytes)
    (order : HashOrder) (route : Route) (n : Nat) (hservice : service ≠ 0)
    (hroute : s.routingTable.lookup (conn, service) = some route)
    (hwriter : (route.peer conn).1 ∈ s.writers) (hoverflow : s.overflowTeardown = [])
    (haccepts : ∀ i < s.attempts.length + n, accepts i = true) :
    (List.replicate n ⟨.frame conn service payload, order⟩).foldl (actorStep pc accepts) s =
      plus s (List.replicate n ⟨⟨(route.peer conn).1, (route.peer conn).2, payload⟩, true⟩) := by
  induction n generalizing s with
  | zero => simp [plus]
  | succ n ih =>
    have hstep : actorStep pc accepts s ⟨.frame conn service payload, order⟩ =
        plus s [⟨⟨(route.peer conn).1, (route.peer conn).2, payload⟩, true⟩] := by
      have hnow := haccepts s.attempts.length (by omega)
      simp [actorStep, processEvent, ServerState.processFrame, ServerState.processService, hservice,
        hroute, ServerState.tryEnqueue, hwriter, hnow, hoverflow, plus]
    rw [List.replicate_succ, List.foldl_cons, hstep, ih (plus s _) hroute hwriter hoverflow]
    · simp [plus, List.replicate_succ]
    · intro i hi
      apply haccepts
      simp only [plus, List.length_append, List.length_singleton] at hi
      omega

/-- The channel of the consumer takes 4096 frames, and refuses the next one. -/
def fullAt (i : Nat) : Bool := i ≠ 4097

def flood : List Input := List.replicate 4095 ⟨.frame ⟨1⟩ 1 [7], .stored⟩

def flooded (s : ServerState) : ServerState := plus s (List.replicate 4095 ⟨⟨⟨2⟩, 1, [7]⟩, true⟩)

theorem actorLoop_flood {start : List Input}
    (hlength : (actorLoop pc fullAt start).attempts.length = 2)
    (hroute : (actorLoop pc fullAt start).routingTable.lookup (⟨1⟩, 1) = some ⟨⟨2⟩, 1, ⟨1⟩, 1⟩)
    (hwriter : ⟨2⟩ ∈ (actorLoop pc fullAt start).writers)
    (hoverflow : (actorLoop pc fullAt start).overflowTeardown = []) :
    actorLoop pc fullAt (start ++ flood) = flooded (actorLoop pc fullAt start) := by
  rw [actorLoop, List.foldl_append, ← actorLoop]
  apply foldl_flood pc fullAt _ ⟨1⟩ 1 [7] .stored ⟨⟨2⟩, 1, ⟨1⟩, 1⟩ 4095 (by decide) hroute hwriter
    hoverflow
  intro i hi
  simp only [fullAt, decide_eq_true_eq]
  omega

theorem length_flooded {s : ServerState} (h : s.attempts.length = 2) :
    (flooded s).attempts.length = 4097 := by
  rw [flooded, plus, List.length_append, h, List.length_replicate]

def greetings : List Attempt :=
  [⟨⟨⟨2⟩, 0, controlMessage.encode (.interestAccepted clipboard 1 1)⟩, true⟩,
    ⟨⟨⟨1⟩, 0, controlMessage.encode (.interestAccepted clipboard 1 1)⟩, true⟩]

def brimful (c : ConnectionId) : Nat := if c = ⟨2⟩ then 4096 else if c = ⟨1⟩ then 1 else 0

theorem bounded_flood {s : ServerState} (hs : s.attempts = greetings) (es : List ChannelEvent)
    (h : Answering brimful es) :
    Bounded ((flooded s).attempts ++ es.filterMap ChannelEvent.attempt) := by
  refine ⟨greetings.map .offer ++ (List.replicate 4095 (.offer ⟨⟨⟨2⟩, 1, [7]⟩, true⟩) ++ es), ?_, ?_⟩
  · have hreplicate := List.filterMap_replicate_of_some (n := 4095) (f := ChannelEvent.attempt)
      (a := .offer ⟨⟨⟨2⟩, 1, [7]⟩, true⟩) (b := ⟨⟨⟨2⟩, 1, [7]⟩, true⟩) rfl
    rw [List.filterMap_append, List.filterMap_append, hreplicate, flooded, plus, hs, List.append_assoc]
    rfl
  · refine ⟨by decide, by decide, answering_fill (f := ⟨⟨2⟩, 1, [7]⟩) 4095 (by decide) ?_⟩
    convert h using 1
    funext c
    by_cases h2 : c = ⟨2⟩
    · subst h2
      rfl
    · by_cases h1 : c = ⟨1⟩
      · subst h1
        rfl
      · simp [brimful, h1, h2, Function.update]

end Pane.Attempts
