import Mathlib.Data.List.Perm.Basic
import Pane.PaneNetwork
import Pane.TeardownNotices

namespace Pane.QuietRequests

open Pane.HashTable Pane.Messages Pane.Callbacks Pane.LooperState Pane.CoreRequest Pane.CoreRuns
open Pane.RequestLedger Pane.CoreSteps Pane.LooperPlan Pane.Routing Pane.Server Pane.ServerActor
open Pane.RouteSymmetry Pane.RouteTable Pane.ConnectionSource Pane.Links Pane.Overflow
open Pane.SteadyRuns Pane.WireSystem Pane.WireHistory Pane.InOrderDelivery Pane.PaneNetwork
open Pane.GhostConnections (Manned)
open Pane.PostcardFormat
open Pane.TeardownNotices (teardowns of_noticeIn teardowns_exec Fate fate)

variable {Q : Type} {H : ConnectionId → Type}

def installedOn : Event → Option UInt16
  | .installed _ s => some s
  | .installedAsync _ s => some s
  | _ => none

def teardownOf : LooperMessage → Option UInt16
  | .control (.serviceTeardown s _) => some s
  | _ => none

def Usable (delivered handled : List LooperMessage) (s : UInt16) : Prop :=
  s ∈ delivered.filterMap acceptance ∧ s ∉ handled.filterMap teardownOf

instance (delivered handled : List LooperMessage) (s : UInt16) :
    Decidable (Usable delivered handled s) :=
  inferInstanceAs (Decidable (_ ∧ _))

section Nodes

variable {α : Type} {env : Env α} {node node' : Node α} {w w' : Wire Q} {deed : Deed}

/-- The sessions on which requests were made between two states. -/
def requested (core core' : LooperCore α) : List UInt16 := (since core core').filterMap installedOn

def awaited (core : LooperCore α) : List UInt16 :=
  core.activeSession.correlator.tokenSessions.entries.map Sigma.snd

def passedOver (node : Node α) : Deed → Option UInt16
  | .dispatch i .skip => node.waiting[i]?.bind teardownOf
  | _ => none

theorem mem_awaited {core : LooperCore α} {t : Token} {s : UInt16} (h : sessionOf core t = some s) :
    s ∈ awaited core :=
  List.mem_map.mpr ⟨⟨t, s⟩, AList.mem_lookup_iff.mp h, rfl⟩

theorem mem_requested {core core' : LooperCore α} {t : Token} {s : UInt16}
    (h : InstalledSince core core' t s) : s ∈ requested core core' := by
  obtain ⟨es, hes, hmem⟩ := h
  have hsince : since core core' = es := by rw [since, hes, List.drop_left]
  rw [requested, hsince]
  obtain hmem | hmem := hmem
  · exact List.mem_filterMap.mpr ⟨_, hmem, rfl⟩
  · exact List.mem_filterMap.mpr ⟨_, hmem, rfl⟩

def Held (node : Node α) (w : Wire Q) : Prop :=
  ∀ t s, sessionOf node.core t = some s → Usable w.delivered node.handled s

/-- What was delivered waits for the looper or was handled by it. -/
def Kept (node : Node α) (w : Wire Q) : Prop := ∀ m ∈ w.delivered, m ∈ node.waiting ∨ m ∈ node.handled

theorem kept_moved (h : Moved env node w deed node' w') (hkept : Kept node w) : Kept node' w' := by
  intro m hm
  cases h with
  | wire action more w' hdelivered htaken =>
    rw [hdelivered] at hm
    obtain hm | hm := List.mem_append.mp hm
    · exact (hkept m hm).imp_left (List.mem_append_left more)
    · exact .inl (List.mem_append_right _ hm)
  | take i frame w' hframe hdelivered htaken => exact hkept m (hdelivered ▸ hm)
  | dispatch i way msg hmsg =>
    rw [handled_dispatch, waiting_dispatch]
    obtain hm | hm := hkept m hm
    · obtain ⟨hi, rfl⟩ := List.getElem?_eq_some_iff.mp hmsg
      obtain rfl | hm := List.mem_cons.mp ((List.getElem_cons_eraseIdx_perm hi).mem_iff.mpr hm)
      · exact .inr (by simp)
      · exact .inl hm
    · exact .inr (List.mem_append_left _ hm)
  | act act hlocal =>
    rw [waiting_exec, handled_exec]
    exact hkept m hm
  | settle effect hport => exact hkept m hm
  | post frame hposted => exact hkept m hm

theorem clears_dispatch {granted : UInt16 → ServiceFrame → Prop} (hframes : env.pc.FrameRoundTrip)
    {way : Way} {msg : LooperMessage} {s : UInt16} (hmsg : teardownOf msg = some s) (i : Nat)
    (hway : way ≠ .skip) :
    Clears env granted s node.core (node.dispatch env i way msg).core := by
  obtain ⟨op, hop, htorn⟩ : ∃ op, way.op env.pc msg = some op ∧ tornDown op = some s := by
    cases msg with
    | control msg =>
      cases msg with
      | serviceTeardown n reason =>
        cases way with
        | skip => exact absurd rfl hway
        | whole => exact ⟨_, rfl, hmsg⟩
        | batch direct => exact ⟨_, rfl, hmsg⟩
      | _ => cases hmsg
    | _ => cases hmsg
  have hclears : Unwinding.Ends ((Act.op op).exec env) node.core
      fun _ => Clears env granted s node.core := by
    refine Unwinding.Ends.seq (ends_teardown hframes htorn node.core) ?_ fun _ h => h
    intro outcome core h
    cases outcome <;> exact h
  unfold Node.dispatch
  rw [hop]
  dsimp only
  rw [core_exec]
  exact hclears

theorem held_moved (hframes : env.pc.FrameRoundTrip) (h : Moved env node w deed node' w')
    (hrequested : ∀ s ∈ requested node.core node'.core, Usable w.delivered node'.handled s)
    (hspared : ∀ s, passedOver node deed = some s → s ∉ awaited node.core) (hheld : Held node w) : Held node' w' := by
  have hdelivered : ∀ s, s ∈ w.delivered.filterMap acceptance → s ∈ w'.delivered.filterMap acceptance :=
    fun s hs => ((delivered_moved h).filterMap acceptance).subset hs
  have hsteps := steps_moved hframes h
  have hnew : ∀ {t s}, InstalledSince node.core node'.core t s → Usable w'.delivered node'.handled s :=
    fun hs => (hrequested _ (mem_requested hs)).imp_left (hdelivered _)
  intro t s hs
  obtain hold | hsince := tracked_steps hsteps hs
  · obtain ⟨haccepted, hhandled⟩ := hheld t s hold
    cases h with
    | dispatch i way msg hmsg =>
      by_cases hteardown : teardownOf msg = some s
      · by_cases hway : way = .skip
        · subst hway
          refine absurd (mem_awaited hold) (hspared s ?_)
          rw [passedOver, hmsg]
          exact hteardown
        · -- what is outstanding afterwards was installed after the cascade
          have hclears : Clears env (Handed env.pc (node.dispatch env i way msg).handled) s
              node.core (node.dispatch env i way msg).core :=
            clears_dispatch hframes hteardown i hway
          obtain ⟨core₁, hbefore, hnone, hafter⟩ := hclears
          obtain hbetween | hsince := tracked_steps hafter hs
          · exact absurd hbetween (hnone t)
          · obtain ⟨es, hes⟩ := grows_steps hbefore
            exact hnew (hsince.mono hes (List.append_nil _).symm)
      · refine ⟨hdelivered s haccepted, ?_⟩
        rw [handled_dispatch, List.filterMap_append, List.mem_append, not_or]
        refine ⟨hhandled, fun hmem => ?_⟩
        obtain ⟨m, hm, hs⟩ := List.mem_filterMap.mp hmem
        exact hteardown (List.mem_singleton.mp hm ▸ hs)
    | wire action more w' => exact ⟨hdelivered s haccepted, hhandled⟩
    | take i frame w' => exact ⟨hdelivered s haccepted, hhandled⟩
    | act act hlocal =>
      rw [handled_exec]
      exact ⟨haccepted, hhandled⟩
    | settle effect hport => exact ⟨haccepted, hhandled⟩
    | post frame hposted => exact ⟨haccepted, hhandled⟩
  · exact hnew hsince

end Nodes

section Server

variable {pc : Postcard} {accepts : Nat → Bool} {known gone : List ConnectionId}

theorem route_or_notice_exec (hpc : pc.ControlRoundTrip) {s : ServerState}
    (hs : Symmetric s.toRoutingState) {k : Endpoint} (hwriter : k.1 ∈ s.writers)
    (hroute : k ∈ s.routingTable) {order : HashOrder} {event : ServerEvent}
    (hevent : event ≠ .disconnected k.1) :
    k ∈ (exec pc accepts s (.event order event)).routingTable ∨
      teardowns pc (exec pc accepts s (.event order event)) k ≠ [] := by
  obtain ⟨r, hr⟩ := Option.isSome_iff_exists.mp (AList.lookup_isSome.mpr hroute)
  rw [teardowns_exec accepts hpc hs, if_pos hwriter]
  have hfate : Fate pc accepts s (.event order event) k r := fate accepts hs hr _
  cases hfate with
  | revoked _ told _ => exact .inr (by rw [told]; simp)
  | lost _ told _ => exact .inr (by rw [told]; simp)
  | ended h _ _ =>
    obtain ⟨_, h | h⟩ := h
    · cases h
      exact absurd rfl hevent
    · cases h
  | kept _ hkept => exact .inl (AList.lookup_isSome.mp (by rw [hkept]; rfl))

theorem route_or_notice (hpc : pc.ControlRoundTrip) {inputs front : List Input}
    (hsteady : Steady pc accepts known gone inputs) (hfront : front <+: inputs) {k : Endpoint}
    (hk : ∀ i ∈ inputs, i.event ≠ .disconnected k.1)
    (hroute : k ∈ (after pc accepts front).routingTable) :
    k ∈ (after pc accepts inputs).routingTable ∨ teardowns pc (after pc accepts inputs) k ≠ [] := by
  have hgrows : ∀ rest, front ++ rest <+: inputs →
      k ∈ (after pc accepts (front ++ rest)).routingTable ∨
        teardowns pc (after pc accepts (front ++ rest)) k ≠ [] := by
    intro rest hrest
    induction rest using List.reverseRecOn with
    | nil =>
      rw [List.append_nil]
      exact .inl hroute
    | append_singleton rest input ih =>
      rw [← List.append_assoc] at hrest ⊢
      have hbefore : front ++ rest <+: inputs := (List.prefix_append _ _).trans hrest
      have hmanned : Manned _ (after pc accepts (front ++ rest)) :=
        hsteady.manned hpc (hbefore.map _)
      have hinput : input ∈ inputs := hrest.subset (by simp)
      rw [after_concat]
      obtain hroute | htold := ih hbefore
      · obtain ⟨r, hr⟩ := Option.isSome_iff_exists.mp (AList.lookup_isSome.mpr hroute)
        have hwriter := AList.mem_keys.mpr (hmanned.routing.routes k r hr)
        exact route_or_notice_exec hpc hmanned.sound.symmetric hwriter hroute (hk input hinput)
      · rw [teardowns_exec accepts hpc hmanned.sound.symmetric]
        exact .inr (List.append_ne_nil_of_left_ne_nil htold _)
  obtain ⟨rest, rfl⟩ := hfront
  exact hgrows rest (List.prefix_refl _)

end Server

section Networks

/-- A looper makes requests on usable sessions only, and it skips the teardown of a
session only if nothing is outstanding there. -/
def Prompt (x y : Network Q H) (c : ConnectionId) (deed : Deed) : Prop :=
  (∀ s ∈ requested (x.nodes c).core (y.nodes c).core,
    Usable (x.system.wires c).delivered (y.nodes c).handled s) ∧
  ∀ s, passedOver (x.nodes c) deed = some s → s ∉ awaited (x.nodes c).core

def prompt (world : World Q H) (x : Network Q H) : Turn → Bool
  | .server _ => true
  | .pane c deed =>
    match x.step world (.pane c deed) with
    | none => true
    | some y =>
      (requested (x.nodes c).core (y.nodes c).core).all (fun s =>
        decide (Usable (x.system.wires c).delivered (y.nodes c).handled s)) &&
      (passedOver (x.nodes c) deed).all (fun s => decide (s ∉ awaited (x.nodes c).core))

variable {world : World Q H} {x : Network Q H}

theorem prompt_step {y : Network Q H} {c : ConnectionId} {deed : Deed}
    (hok : prompt world x (.pane c deed) = true) (hstep : x.step world (.pane c deed) = some y) :
    Prompt x y c deed := by
  rw [prompt, hstep, Bool.and_eq_true, List.all_eq_true] at hok
  refine ⟨fun s hs => of_decide_eq_true (hok.1 s hs), fun s hs => ?_⟩
  rw [hs] at hok
  exact of_decide_eq_true hok.2

theorem held_attained (hframes : world.pc.FrameRoundTrip)
    (h : Attained world (fun x turn => prompt world x turn = true) x) (c : ConnectionId) :
    Held (x.nodes c) (x.system.wires c) ∧ Kept (x.nodes c) (x.system.wires c) := by
  have hframes' : (world.env c).pc.FrameRoundTrip := (world.same c).symm ▸ hframes
  refine attained_node (P := fun node w => Held node w ∧ Kept node w) ⟨?_, ?_⟩ ?_ ?_ h
  · intro t s hs
    cases hs
  · intro m hm
    cases hm
  · exact fun node w channel hnode => hnode
  · intro x y deed hok hstep hnode
    obtain ⟨hrequested, hspared⟩ := prompt_step hok hstep
    have hmoved := moved_step hstep
    exact ⟨held_moved hframes' hmoved hrequested hspared hnode.1, kept_moved hmoved hnode.2⟩

end Networks

section Quiescence

variable {α : Type}

/-- Nothing is under way between a pane and the server, and the pane has nothing
to dispatch. -/
structure Resting (node : Node α) (w : Wire (List WriteMessage)) : Prop where
  up : w.up = []
  channel : w.channel = []
  down : w.down = []
  outbox : node.outbox = []
  waiting : node.waiting = []

/-- The connection was not closed from either end, and the pane has not exited. -/
structure Intact (node : Node α) (w : Wire (List WriteMessage)) : Prop where
  joined : w.phase ≠ .left
  hears : w.deaf = false
  alive : node.alive = true

instance (node : Node α) (w : Wire (List WriteMessage)) : Decidable (Resting node w) :=
  decidable_of_iff
    (w.up = [] ∧ w.channel = [] ∧ w.down = [] ∧ node.outbox = [] ∧ node.waiting = [])
    ⟨fun ⟨up, channel, down, outbox, waiting⟩ => ⟨up, channel, down, outbox, waiting⟩,
      fun h => ⟨h.up, h.channel, h.down, h.outbox, h.waiting⟩⟩

instance (node : Node α) (w : Wire (List WriteMessage)) : Decidable (Intact node w) :=
  decidable_of_iff (w.phase ≠ .left ∧ w.deaf = false ∧ node.alive = true)
    ⟨fun ⟨joined, hears, alive⟩ => ⟨joined, hears, alive⟩, fun h => ⟨h.joined, h.hears, h.alive⟩⟩

variable {world : World (List WriteMessage) H} {x : Network (List WriteMessage) H}

theorem flows_attained {ok : Network (List WriteMessage) H → Turn → Prop}
    (hlink : ∀ c, world.link c = Link.queue WriteMessage) (h : Attained world ok x) :
    Flows world.toSetting (fun _ _ => True) (fun _ => (· = ·)) x.system := by
  have hreached : Reached world.toSetting (fun _ _ => True) x.system :=
    reached_system (fun _ _ _ => trivial) (fun _ _ _ => trivial) h
  refine flows_reached (fun c => ?_) hreached
  rw [hlink c]
  exact Link.faithful_queue

theorem handled_of_resting
    (h : Flows world.toSetting (fun _ _ => True) (fun _ => (· = ·)) x.system) {c : ConnectionId}
    (hkept : Kept (x.nodes c) (x.system.wires c)) (hresting : Resting (x.nodes c) (x.system.wires c))
    (hintact : Intact (x.nodes c) (x.system.wires c)) {frame : WriteMessage}
    (hframe : frame ∈ enqueued x.system.server.attempts c) {m : LooperMessage}
    (hm : arrived world.pc frame = some m) : m ∈ (x.nodes c).handled := by
  obtain ⟨front, pending, hwrote, hdelivered, hcarries⟩ := (h.wires c).down fun _ _ => trivial
  have hpending : pending = [] := (hcarries hintact.hears).symm.trans hresting.down
  have hchannels := h.channels c
  rw [hresting.channel, List.append_nil, hwrote, hpending, List.append_nil] at hchannels
  have hmem : m ∈ (x.system.wires c).delivered := by
    rw [hdelivered, hchannels]
    exact List.mem_filterMap.mpr ⟨frame, List.mem_append_right _ hframe, hm⟩
  obtain hwaiting | hhandled := hkept m hmem
  · rw [hresting.waiting] at hwaiting
    cases hwaiting
  · exact hhandled

theorem route_of_usable (hpc : world.pc.ControlRoundTrip)
    (h : Flows world.toSetting (fun _ _ => True) (fun _ => (· = ·)) x.system)
    (hrefused : Unrefused x.system.server) (hevents : x.system.queue = []) {c : ConnectionId}
    (hkept : Kept (x.nodes c) (x.system.wires c)) (hresting : Resting (x.nodes c) (x.system.wires c))
    (hintact : Intact (x.nodes c) (x.system.wires c)) {s : UInt16}
    (hs : Usable (x.system.wires c).delivered (x.nodes c).handled s) :
    (c, s) ∈ x.system.server.routingTable := by
  obtain ⟨known, gone, hposted, hphases⟩ := h.posted
  rw [System.events, hevents, List.append_nil] at hposted
  have hsteady : Steady world.pc world.accepts known gone x.system.past :=
    steady_of_posted hposted rfl
  obtain ⟨start, hstart, hroute⟩ :=
    route_of_delivered (k := (c, s)) hpc h hrefused (fun _ _ => trivial) hs.1
  have hstays : ∀ i ∈ x.system.past, i.event ≠ .disconnected c := by
    intro i hi he
    have hgone := Posted.left hposted (List.mem_map.mpr ⟨i, hi, he⟩)
    exact hintact.joined ((hphases c).2.mp hgone)
  rw [server_eq h hrefused]
  obtain hkeeps | htold := route_or_notice hpc hsteady hstart hstays hroute
  · exact hkeeps
  -- otherwise the teardown was sent, so the pane has handled it
  rw [← server_eq h hrefused] at htold
  obtain ⟨reason, hreason⟩ := List.exists_mem_of_ne_nil _ htold
  obtain ⟨f, hf, hnotice⟩ := List.mem_filterMap.mp hreason
  obtain ⟨hconn, hservice, hmsg⟩ := of_noticeIn hnotice
  have harrived : arrived world.pc (message f) = some (.control (.serviceTeardown s reason)) := by
    simp [arrived, classifyFrame, message, hservice, hmsg]
  have henqueued := mem_enqueued_of_offered hrefused hf
  rw [hconn] at henqueued
  have hhandled := handled_of_resting h hkept hresting hintact henqueued harrived
  exact (hs.2 (List.mem_filterMap.mpr ⟨_, hhandled, rfl⟩)).elim

/-- No request is orphaned at quiescence, if requests are made on usable sessions
only: when all queues are empty and no pane has anything to dispatch, then what is
outstanding in a pane is outstanding on a session that still has a route. -/
theorem outstanding_routed (hlink : ∀ c, world.link c = Link.queue WriteMessage)
    (hcontrol : world.pc.ControlRoundTrip) (hframes : world.pc.FrameRoundTrip)
    (hx : Attained world (fun x turn => prompt world x turn = true) x)
    (hrefused : Unrefused x.system.server)
    (hintact : ∀ c, Intact (x.nodes c) (x.system.wires c)) (hevents : x.system.queue = [])
    (hresting : ∀ c, Resting (x.nodes c) (x.system.wires c)) (c : ConnectionId) (t : Token)
    (s : UInt16) (ht : sessionOf (x.nodes c).core t = some s) :
    (c, s) ∈ x.system.server.routingTable := by
  have hflows := flows_attained hlink hx
  obtain ⟨hheld, hkept⟩ := held_attained hframes hx c
  exact route_of_usable hcontrol hflows hrefused hevents hkept (hresting c) (hintact c)
    (hheld t s ht)

end Quiescence

section Runs

variable {world : World (List WriteMessage) H} {ok : Network (List WriteMessage) H → Turn → Bool}
  {turns : List Turn} {y : Network (List WriteMessage) H}

theorem resting_plays (hlink : ∀ c, world.link c = Link.queue WriteMessage)
    (h : plays world ok turns (Network.new world) = some y) (owners : List ConnectionId)
    (howners : ∀ turn ∈ turns, ∀ c ∈ turn.owner, c ∈ owners)
    (hattempts : ∀ a ∈ y.system.server.attempts, a.frame.conn ∈ owners)
    (hresting : ∀ c ∈ owners, Resting (y.nodes c) (y.system.wires c) ∧
      Intact (y.nodes c) (y.system.wires c)) (c : ConnectionId) :
    Resting (y.nodes c) (y.system.wires c) ∧ Intact (y.nodes c) (y.system.wires c) := by
  by_cases hc : c ∈ owners
  · exact hresting c hc
  have hchannels := (flows_attained hlink (attained_plays (attained_new _) h)).channels c
  obtain ⟨hnode, channel, hwire⟩ :=
    still_plays h fun turn hturn howner => hc (howners turn hturn c howner)
  have hnone : enqueued y.system.server.attempts c = [] := by
    refine List.map_eq_nil_iff.mpr (List.map_eq_nil_iff.mpr (List.filter_eq_nil_iff.mpr ?_))
    intro a ha hconn
    exact hc ((of_decide_eq_true hconn).1 ▸ hattempts a ha)
  have hempty : (world.link c).empty = [] := by
    rw [hlink c]
    rfl
  rw [hwire, hnone] at hchannels
  rw [hnode, hwire]
  exact ⟨⟨hempty, hchannels, hempty, rfl, rfl⟩, ⟨nofun, rfl, rfl⟩⟩

end Runs

def keeping : RequestReceiver Unit where
  tag := 9
  receiveRequest _ := some fun _ h => .ret h .cont

def patient : World (List WriteMessage) (fun _ => Unit) where
  pc := postcard
  accepts _ := true
  link _ := Link.queue WriteMessage
  env _ := { Env.idle postcard with serviceDispatch := ⟨∅, (∅ : Table _ _).insert 1 keeping⟩ }
  start _ := ()
  same _ := rfl

def submit (c : ConnectionId) : List Turn :=
  [.pane c (.take 0), .pane c (.wire .serverRead), .server .stored]

def fetch (c : ConnectionId) : List Turn :=
  [.pane c (.wire .serverWrite), .pane c (.wire .paneRead), .pane c (.dispatch 0 .whole)]

/-- Connection 1 provides a service that connection 2 then declares. -/
def opening : List Turn :=
  let declare := controlMessage.encode (.declareInterest clipboard 1)
  [.pane ⟨1⟩ (.wire .greet), .pane ⟨1⟩ (.wire .paneRead), .pane ⟨1⟩ (.dispatch 0 .whole),
    .pane ⟨1⟩ (.wire (.register ⟨[clipboard]⟩)), .server .stored, .pane ⟨2⟩ (.wire .greet),
    .pane ⟨2⟩ (.wire .paneRead), .pane ⟨2⟩ (.dispatch 0 .whole),
    .pane ⟨2⟩ (.wire (.register ⟨[]⟩)), .server .stored, .pane ⟨2⟩ (.post (0, declare))] ++
    (submit ⟨2⟩ ++ (fetch ⟨1⟩ ++ fetch ⟨2⟩))

def asking : List Turn := .pane ⟨2⟩ (.act (.op (.syncRequest ⟨1, [9]⟩))) :: submit ⟨2⟩

def unanswered : Network (List WriteMessage) (fun _ => Unit) :=
  (plays patient (prompt patient) (opening ++ (asking ++ fetch ⟨1⟩)) (Network.new patient)).get
    (by decide +kernel)

theorem outstanding_routed_unanswered :
    sessionOf (unanswered.nodes ⟨2⟩).core 0 = some 1 ∧
      (⟨2⟩, 1) ∈ unanswered.system.server.routingTable := by
  have hplays : plays patient (prompt patient) (opening ++ (asking ++ fetch ⟨1⟩))
      (Network.new patient) = some unanswered := (Option.some_get _).symm
  have hresting := resting_plays (fun _ => rfl) hplays [⟨1⟩, ⟨2⟩] (by decide +kernel)
    (by decide +kernel) (by decide +kernel)
  refine ⟨by decide +kernel, ?_⟩
  exact outstanding_routed (fun _ => rfl) postcard_control postcard_frame (attained_plays (attained_new _) hplays)
    (by unfold Unrefused; decide +kernel) (fun c => (hresting c).2) (by decide +kernel)
    (fun c => (hresting c).1) ⟨2⟩ 0 1 (by decide +kernel)

def tooLate : List Turn :=
  let revoke := controlMessage.encode (.revokeInterest 1)
  opening ++ (.pane ⟨2⟩ (.post (0, revoke)) :: (submit ⟨2⟩ ++ (fetch ⟨1⟩ ++ (fetch ⟨2⟩ ++ asking))))

def orphaned : Network (List WriteMessage) (fun _ => Unit) :=
  (plays patient (fun _ _ => true) tooLate (Network.new patient)).get (by decide +kernel)

/-- The server drops the frame without a word, and the request stays outstanding
though its session has no route. -/
theorem outstanding_unrouted :
    Attained patient (fun _ _ => true = true) orphaned ∧ Unrefused orphaned.system.server ∧
    orphaned.system.queue = [] ∧
    (∀ c, Resting (orphaned.nodes c) (orphaned.system.wires c) ∧
      Intact (orphaned.nodes c) (orphaned.system.wires c)) ∧
    sessionOf (orphaned.nodes ⟨2⟩).core 0 = some 1 ∧
    (⟨2⟩, 1) ∉ orphaned.system.server.routingTable := by
  have hplays : plays patient (fun _ _ => true) tooLate (Network.new patient) = some orphaned :=
    (Option.some_get _).symm
  refine ⟨attained_plays (attained_new _) hplays, by unfold Unrefused; decide +kernel, by decide +kernel, ?_,
    by decide +kernel, by decide +kernel⟩
  exact resting_plays (fun _ => rfl) hplays [⟨1⟩, ⟨2⟩] (by decide +kernel)
    (by decide +kernel) (by decide +kernel)

end Pane.QuietRequests
