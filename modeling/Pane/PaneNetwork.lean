import Pane.AnsweredRequests
import Pane.InOrderDelivery
import Pane.LooperPlan

namespace Pane.PaneNetwork

open Pane.HashTable Pane.Messages Pane.Callbacks Pane.Unwinding Pane.LooperState Pane.CoreRequest
open Pane.CoreRuns Pane.LooperPlan Pane.Server Pane.ServerActor Pane.ConnectionSource Pane.Links
open Pane.WireSystem Pane.WireHistory Pane.CallbackEffects Pane.CoreSteps Pane.Machines
open Pane.AnsweredRequests (usesPort)

/-- A pane behind one of the connections: its looper, the frames that wait for its
writer and the messages that wait for its looper. The history `handled` is not in
the source. -/
structure Node (H : Type) where
  core : LooperCore H
  outbox : List WriteMessage
  waiting : List LooperMessage
  handled : List LooperMessage
  alive : Bool

variable {Q : Type} {H : ConnectionId → Type}

/-- The server, all connections and the panes at their ends, at one moment. -/
structure Network (Q : Type) (H : ConnectionId → Type) where
  system : System Q
  nodes : ∀ c, Node (H c)

/-- What does not change during a run. -/
structure World (Q : Type) (H : ConnectionId → Type) extends Setting Q where
  env : ∀ c, Env (H c)
  start : ∀ c, H c
  same : ∀ c, (env c).pc = pc

/-- How a message is dispatched: by `LooperCore::run`, in a batch of `Looper::run`,
or not at all. Before the loop most control messages are skipped, in a batch the
frames of revoked sessions. -/
inductive Way
  | whole
  | batch (direct : Bool)
  | skip

def Way.op (pc : Postcard) : Way → LooperMessage → Option Op
  | .skip, _ => none
  | .batch _, .control (.serviceTeardown sessionId reason) => some (.tearDown sessionId reason)
  | .batch _, .control (.interestAccepted _ sessionId _) => some (.connectSubscriber sessionId)
  | .batch direct, .service sessionId payload =>
    (pc.frameFromBytes payload).map (.service direct sessionId)
  | _, msg => some (.handle msg)

/-- What a pane does next. -/
inductive Deed
  | wire (action : Action)
  /-- The writer takes a frame. What goes directly into the buffer overtakes. -/
  | take (i : Nat)
  | dispatch (i : Nat) (way : Way)
  /-- What does not come from the server: requests of other threads, revocations,
  timers, and the end of the loop. -/
  | act (act : Act)
  /-- A reply port is used outside of the looper, perhaps after its end. -/
  | settle (effect : Effect)
  /-- Frames that do not come from the looper thread. -/
  | post (frame : WriteMessage)

inductive Turn
  | server (order : HashOrder)
  | pane (c : ConnectionId) (deed : Deed)

def Turn.owner : Turn → Option ConnectionId
  | .server _ => none
  | .pane c _ => some c

def isSend : Action → Bool
  | .send _ => true
  | _ => false

def isLocal : Act → Bool
  | .op (.syncRequest _) => true
  | .op (.write _) => true
  | .op (.handle (.localRevoke _)) => true
  | .op (.handle (.control (.lifecycle .pulse))) => true
  | .close => true
  | .fail => true
  | _ => false

def isPosted (pc : Postcard) (frame : WriteMessage) : Bool :=
  if frame.1 = 0 then (pc.controlFromBytes frame.2).isSome
  else
    match pc.frameFromBytes frame.2 with
    | some (.notification _) => true
    | _ => false

def sentFrame : Event → Option WriteMessage
  | .sent service payload => some (service, payload)
  | _ => none

def since {α : Type} (core core' : LooperCore α) : List Event :=
  core'.trace.drop core.trace.length

def Node.advance {α : Type} (core : LooperCore α) (alive : Bool) (node : Node α) : Node α :=
  { node with
    core
    outbox := node.outbox ++ (since node.core core).filterMap sentFrame
    alive }

def Node.exec {α : Type} (env : Env α) (act : Act) (node : Node α) : Node α :=
  match act.exec env node.core with
  | (.done none, core) => node.advance core true
  | (_, core) => node.advance core false

def Node.settle {α : Type} (env : Env α) (effect : Effect) (node : Node α) : Node α :=
  node.advance (perform env .disconnected effect node.core).2 node.alive

def Node.dispatch {α : Type} (env : Env α) (i : Nat) (way : Way) (msg : LooperMessage)
    (node : Node α) : Node α :=
  let rest := { node with
    waiting := node.waiting.eraseIdx i
    handled := node.handled ++ [msg] }
  match way.op env.pc msg with
  | none => rest
  | some op => rest.exec env (.op op)

def Node.new {α : Type} (handler : α) (scope : PeerScope) : Node α :=
  ⟨LooperCore.new handler scope, [], [], [], true⟩

variable (world : World Q H)

def Network.new : Network Q H where
  system := System.new world.toSetting
  nodes c := Node.new (world.start c) ⟨c.id⟩

/-- What the reader of the pane has delivered since waits for the looper. -/
def Node.receive {α : Type} (delivered delivered' : List LooperMessage) (node : Node α) : Node α :=
  { node with waiting := node.waiting ++ delivered'.drop delivered.length }

def Network.step (x : Network Q H) : Turn → Option (Network Q H)
  | .server order => do
    let system ← x.system.step world.toSetting (.act order)
    return { x with system }
  | .pane c (.wire action) => do
    guard (isSend action = false)
    let system ← x.system.step world.toSetting (.wire c action)
    let node := (x.nodes c).receive (x.system.wires c).delivered (system.wires c).delivered
    return { system, nodes := Function.update x.nodes c node }
  | .pane c (.take i) => do
    let frame ← (x.nodes c).outbox[i]?
    let system ← x.system.step world.toSetting (.wire c (.send frame))
    let node := { x.nodes c with outbox := (x.nodes c).outbox.eraseIdx i }
    return { system, nodes := Function.update x.nodes c node }
  | .pane c (.dispatch i way) => do
    guard ((x.nodes c).alive = true)
    let msg ← (x.nodes c).waiting[i]?
    let node := (x.nodes c).dispatch (world.env c) i way msg
    return { x with nodes := Function.update x.nodes c node }
  | .pane c (.act act) => do
    guard ((x.nodes c).alive = true)
    guard (isLocal act = true)
    return { x with nodes := Function.update x.nodes c ((x.nodes c).exec (world.env c) act) }
  | .pane c (.settle effect) => do
    guard (usesPort effect = true)
    return { x with nodes := Function.update x.nodes c ((x.nodes c).settle (world.env c) effect) }
  | .pane c (.post frame) => do
    guard (isPosted world.pc frame = true)
    let node := { x.nodes c with outbox := (x.nodes c).outbox ++ [frame] }
    return { x with nodes := Function.update x.nodes c node }

def network : Machine (Network Q H) Turn := ⟨(· = Network.new world), Network.step world⟩

abbrev Attained (ok : Network Q H → Turn → Prop) : Network Q H → Prop :=
  (network world).Reachable ok

theorem attained_new {ok : Network Q H → Turn → Prop} : Attained world ok (Network.new world) :=
  .start rfl

def plays (ok : Network Q H → Turn → Bool) : List Turn → Network Q H → Option (Network Q H)
  | [], x => some x
  | turn :: turns, x => do
    guard (ok x turn)
    plays ok turns (← x.step world turn)

variable {world}

theorem attained_plays {ok : Network Q H → Turn → Bool} {turns : List Turn} {x y : Network Q H}
    (hx : Attained world (fun x turn => ok x turn = true) x) (h : plays world ok turns x = some y) :
    Attained world (fun x turn => ok x turn = true) y := by
  induction turns generalizing x with
  | nil =>
    cases h
    exact hx
  | cons turn turns ih =>
    obtain ⟨hok, h⟩ := guard_bind h
    obtain ⟨z, hstep, h⟩ := Option.bind_eq_some_iff.mp h
    exact ih (.step turn hx hok hstep) h

/-- What a deed does to the node of its pane and to the ends of the wire there. -/
inductive Moved {α : Type} (env : Env α) (node : Node α) (w : Wire Q) :
    Deed → Node α → Wire Q → Prop
  | wire (action : Action) (more : List LooperMessage) (w' : Wire Q)
    (hdelivered : w'.delivered = w.delivered ++ more) (htaken : w'.taken = w.taken) :
    Moved env node w (.wire action) { node with waiting := node.waiting ++ more } w'
  | take (i : Nat) (frame : WriteMessage) (w' : Wire Q) (hframe : node.outbox[i]? = some frame)
    (hdelivered : w'.delivered = w.delivered) (htaken : w'.taken = w.taken ++ [frame]) :
    Moved env node w (.take i) { node with outbox := node.outbox.eraseIdx i } w'
  | dispatch (i : Nat) (way : Way) (msg : LooperMessage) (hmsg : node.waiting[i]? = some msg) :
    Moved env node w (.dispatch i way) (node.dispatch env i way msg) w
  | act (act : Act) (hlocal : isLocal act = true) :
    Moved env node w (.act act) (node.exec env act) w
  | settle (effect : Effect) (hport : usesPort effect = true) :
    Moved env node w (.settle effect) (node.settle env effect) w
  | post (frame : WriteMessage) (hposted : isPosted env.pc frame = true) :
    Moved env node w (.post frame) { node with outbox := node.outbox ++ [frame] } w

theorem ends_move {net : Setting Q} {conn : ConnectionId} {w w' : Wire Q} {action : Action}
    {posted : List ServerEvent} (hmove : Move net conn w action w' posted)
    (hsend : isSend action = false) :
    (∃ more, w'.delivered = w.delivered ++ more) ∧ w'.taken = w.taken := by
  cases hmove with
  | deliver frame down deaf hhears hreceive => exact ⟨⟨_, rfl⟩, rfl⟩
  | send frame up => cases hsend
  | _ => exact ⟨⟨[], (List.append_nil _).symm⟩, rfl⟩

theorem step_pane {x y : Network Q H} {c : ConnectionId} {deed : Deed}
    (h : x.step world (.pane c deed) = some y) :
    ∃ node w, Moved (world.env c) (x.nodes c) (x.system.wires c) deed node w ∧
      y.nodes = Function.update x.nodes c node ∧
      y.system.wires = Function.update x.system.wires c w ∧
      (y.system = x.system ∨ ∃ action, x.system.step world.toSetting (.wire c action) = some y.system) := by
  have hsame : x.system.wires = Function.update x.system.wires c (x.system.wires c) :=
    (Function.update_eq_self c _).symm
  cases deed with
  | wire action =>
    obtain ⟨hsend, h⟩ := guard_bind h
    obtain ⟨system, hsystem, h⟩ := Option.bind_eq_some_iff.mp h
    cases h
    obtain ⟨⟨w, posted⟩, hrun, hy⟩ := Option.bind_eq_some_iff.mp hsystem
    cases hy
    obtain ⟨⟨more, hmore⟩, htaken⟩ := ends_move (move_of_run hrun) hsend
    refine ⟨_, w, .wire action more w hmore htaken, ?_, rfl, .inr ⟨action, hsystem⟩⟩
    simp only [Function.update_self, hmore, Node.receive, List.drop_left]
  | take i =>
    obtain ⟨frame, hframe, h⟩ := Option.bind_eq_some_iff.mp h
    obtain ⟨system, hsystem, h⟩ := Option.bind_eq_some_iff.mp h
    cases h
    obtain ⟨⟨w, posted⟩, hrun, hy⟩ := Option.bind_eq_some_iff.mp hsystem
    cases hy
    cases move_of_run hrun
    refine ⟨_, _, .take i frame _ hframe ?_ ?_, rfl, rfl, .inr ⟨_, hsystem⟩⟩
    · rfl
    · rfl
  | dispatch i way =>
    obtain ⟨-, h⟩ := guard_bind h
    obtain ⟨msg, hmsg, h⟩ := Option.bind_eq_some_iff.mp h
    cases h
    exact ⟨_, _, .dispatch i way msg hmsg, rfl, hsame, .inl rfl⟩
  | act act =>
    obtain ⟨-, h⟩ := guard_bind h
    obtain ⟨hlocal, h⟩ := guard_bind h
    cases h
    exact ⟨_, _, .act act hlocal, rfl, hsame, .inl rfl⟩
  | settle effect =>
    obtain ⟨hport, h⟩ := guard_bind h
    cases h
    exact ⟨_, _, .settle effect hport, rfl, hsame, .inl rfl⟩
  | post frame =>
    obtain ⟨hposted, h⟩ := guard_bind h
    cases h
    exact ⟨_, _, .post frame ((world.same c).symm ▸ hposted), rfl, hsame, .inl rfl⟩

theorem moved_step {x y : Network Q H} {c : ConnectionId} {deed : Deed}
    (h : x.step world (.pane c deed) = some y) :
    Moved (world.env c) (x.nodes c) (x.system.wires c) deed (y.nodes c) (y.system.wires c) := by
  obtain ⟨node, w, hmoved, hnodes, hwires, -⟩ := step_pane h
  rw [hnodes, hwires, Function.update_self, Function.update_self]
  exact hmoved

theorem still_step {x y : Network Q H} {turn : Turn} (h : x.step world turn = some y)
    {c : ConnectionId} (hc : turn.owner ≠ some c) :
    y.nodes c = x.nodes c ∧
      ∃ channel, y.system.wires c = { x.system.wires c with channel } := by
  cases turn with
  | server order =>
    obtain ⟨system, hsystem, h⟩ := Option.bind_eq_some_iff.mp h
    cases h
    rw [System.step, System.act] at hsystem
    split at hsystem
    · cases hsystem
    · cases hsystem
      exact ⟨rfl, _, rfl⟩
  | pane d deed =>
    have hne : c ≠ d := fun he => hc (he ▸ rfl)
    obtain ⟨node, w, -, hnodes, hwires, -⟩ := step_pane h
    rw [hnodes, hwires, Function.update_of_ne hne, Function.update_of_ne hne]
    exact ⟨rfl, _, rfl⟩

theorem still_plays {ok : Network Q H → Turn → Bool} {turns : List Turn} {x y : Network Q H}
    {c : ConnectionId} (h : plays world ok turns x = some y)
    (hc : ∀ turn ∈ turns, turn.owner ≠ some c) :
    y.nodes c = x.nodes c ∧ ∃ channel, y.system.wires c = { x.system.wires c with channel } := by
  induction turns generalizing x with
  | nil =>
    cases h
    exact ⟨rfl, _, rfl⟩
  | cons turn turns ih =>
    obtain ⟨-, h⟩ := guard_bind h
    obtain ⟨z, hstep, h⟩ := Option.bind_eq_some_iff.mp h
    obtain ⟨hnode, channel, hwire⟩ := ih h fun t ht => hc t (List.mem_cons_of_mem _ ht)
    obtain ⟨hnode', channel', hwire'⟩ := still_step hstep (hc turn List.mem_cons_self)
    exact ⟨hnode.trans hnode', channel, by rw [hwire, hwire']⟩

theorem attained_node {ok : Network Q H → Turn → Prop} {c : ConnectionId}
    {P : Node (H c) → Wire Q → Prop} (hnew : P (Node.new (world.start c) ⟨c.id⟩) (.new world.toSetting c))
    (hchannel : ∀ node w channel, P node w → P node { w with channel })
    (hmoved : ∀ {x y : Network Q H} {deed}, ok x (.pane c deed) →
      x.step world (.pane c deed) = some y →
      P (x.nodes c) (x.system.wires c) → P (y.nodes c) (y.system.wires c))
    {x : Network Q H} (h : Attained world ok x) : P (x.nodes c) (x.system.wires c) := by
  induction h with
  | start hx =>
    cases hx
    exact hnew
  | @step x y turn _ hok hstep ih =>
    by_cases hc : turn.owner = some c
    · cases turn with
      | server order => cases hc
      | pane d deed =>
        cases hc
        exact hmoved hok hstep ih
    · obtain ⟨hnode, channel, hwire⟩ := still_step hstep hc
      rw [hnode, hwire]
      exact hchannel _ _ channel ih

def Handed (pc : Postcard) (handled : List LooperMessage) (sessionId : UInt16)
    (frame : ServiceFrame) : Prop :=
  ∃ payload, .service sessionId payload ∈ handled ∧ pc.frameFromBytes payload = some frame

theorem handed_op {pc : Postcard} {way : Way} {msg : LooperMessage} {op : Op}
    (hop : way.op pc msg = some op) {sessionId : UInt16} {frame : ServiceFrame}
    (h : Grants pc op sessionId frame) : Handed pc [msg] sessionId frame := by
  have hhandle : op = .handle msg → Handed pc [msg] sessionId frame := by
    rintro rfl
    cases msg with
    | service s payload =>
      obtain ⟨rfl, hframe⟩ := h
      exact ⟨payload, List.mem_singleton_self _, hframe⟩
    | _ => cases h
  cases way with
  | skip => cases hop
  | whole => exact hhandle (Option.some.inj hop).symm
  | batch direct =>
    cases msg with
    | service s payload =>
      obtain ⟨f, hf, rfl⟩ := Option.map_eq_some_iff.mp hop
      obtain ⟨rfl, rfl⟩ := h
      exact ⟨payload, List.mem_singleton_self _, hf⟩
    | control msg =>
      cases msg with
      | serviceTeardown s reason =>
        cases hop
        cases h
      | interestAccepted u s version =>
        cases hop
        cases h
      | _ => exact hhandle (Option.some.inj hop).symm
    | _ => exact hhandle (Option.some.inj hop).symm

section Nodes

variable {α : Type} {env : Env α} {granted : UInt16 → ServiceFrame → Prop} {node node' : Node α}
  {w w' : Wire Q} {deed : Deed}

theorem walks_act (hframes : env.pc.FrameRoundTrip) (act : Act)
    (hgranted : ∀ op, act = .op op → ∀ s f, Grants env.pc op s f → granted s f) :
    Walks env granted (act.exec env) := by
  cases act with
  | op op =>
    refine Moves.bind (walks_exec hframes op (hgranted op rfl)) fun outcome => ?_
    cases outcome <;> exact Moves.pure _
  | close => exact Moves.bind (walks_channelClosed hframes) fun _ => Moves.pure _
  | fail => exact Moves.bind (walks_infraError hframes) fun _ => Moves.pure _

theorem walks_usesPort (hframes : env.pc.FrameRoundTrip) {effect : Effect}
    (hport : usesPort effect = true) : Walks env granted (perform env .disconnected effect) := by
  cases effect with
  | reply port value => exact walks_reply hframes port value
  | dropPort port => exact walks_dropPort hframes port
  | _ => cases hport

@[simp] theorem core_exec (act : Act) :
    (node.exec env act).core = (act.exec env node.core).2 := by
  unfold Node.exec
  split <;> next heq => rw [heq]; rfl

@[simp] theorem handled_exec (act : Act) :
    (node.exec env act).handled = node.handled := by
  unfold Node.exec
  split <;> rfl

@[simp] theorem waiting_exec (act : Act) :
    (node.exec env act).waiting = node.waiting := by
  unfold Node.exec
  split <;> rfl

theorem handled_dispatch (i : Nat) (way : Way) (msg : LooperMessage) :
    (node.dispatch env i way msg).handled = node.handled ++ [msg] := by
  unfold Node.dispatch
  split
  · rfl
  · exact handled_exec _

theorem waiting_dispatch (i : Nat) (way : Way) (msg : LooperMessage) :
    (node.dispatch env i way msg).waiting = node.waiting.eraseIdx i := by
  unfold Node.dispatch
  split
  · rfl
  · exact waiting_exec _

@[simp] theorem outbox_exec (act : Act) : (node.exec env act).outbox =
    node.outbox ++ (since node.core (act.exec env node.core).2).filterMap sentFrame := by
  unfold Node.exec
  split <;> next heq => rw [heq]; rfl

theorem delivered_moved (h : Moved env node w deed node' w') : w.delivered <+: w'.delivered := by
  cases h with
  | wire action more w' hdelivered htaken => exact ⟨more, hdelivered.symm⟩
  | take i frame w' hframe hdelivered htaken => exact ⟨[], by rw [hdelivered, List.append_nil]⟩
  | _ => exact List.prefix_refl _

theorem steps_moved (hframes : env.pc.FrameRoundTrip) (h : Moved env node w deed node' w') :
    Steps env (Handed env.pc node'.handled) node.core node'.core := by
  cases h with
  | wire => exact .refl
  | take => exact .refl
  | post => exact .refl
  | dispatch i way msg hmsg =>
    unfold Node.dispatch
    split
    · exact .refl
    · next op hop =>
      rw [core_exec, handled_exec]
      refine (walks_act hframes (.op op) ?_).always node.core
      intro op' hact s f hf
      cases hact
      obtain ⟨payload, hmem, hframe⟩ := handed_op hop hf
      exact ⟨payload, List.mem_append_right _ hmem, hframe⟩
  | settle effect hport => exact (walks_usesPort hframes hport).always node.core
  | act act hlocal =>
    rw [core_exec, handled_exec]
    refine (walks_act hframes act ?_).always node.core
    rintro op rfl s f hf
    cases op with
    | handle msg =>
      cases msg with
      | service s' payload => cases hlocal
      | _ => cases hf
    | service direct s' frame => cases hlocal
    | _ => cases hf

end Nodes

theorem reached_step {ok : System Q → Label → Prop} (hwire : ∀ x conn action, ok x (.wire conn action))
    {x y : Network Q H} {turn : Turn} (hact : ∀ order, turn = .server order → ok x.system (.act order))
    (hx : Reached world.toSetting ok x.system) (h : x.step world turn = some y) :
    Reached world.toSetting ok y.system := by
  cases turn with
  | server order =>
    obtain ⟨system, hsystem, h⟩ := Option.bind_eq_some_iff.mp h
    cases h
    exact .step _ hx (hact order rfl) hsystem
  | pane d deed =>
    obtain ⟨-, -, -, -, -, hsame | ⟨action, hsystem⟩⟩ := step_pane h
    · rw [hsame]
      exact hx
    · exact .step _ hx (hwire _ _ _) hsystem

theorem reached_system {ok : System Q → Label → Prop} {okTurn : Network Q H → Turn → Prop}
    (hwire : ∀ x conn action, ok x (.wire conn action))
    (hact : ∀ x order, okTurn x (.server order) → ok x.system (.act order)) {x : Network Q H}
    (h : Attained world okTurn x) : Reached world.toSetting ok x.system := by
  induction h with
  | start hx =>
    cases hx
    exact reached_new _
  | @step x y turn _ hok hstep ih =>
    refine reached_step hwire (fun order hturn => ?_) ih hstep
    subst hturn
    exact hact x order hok

end Pane.PaneNetwork
