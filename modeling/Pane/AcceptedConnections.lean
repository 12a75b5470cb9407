import Mathlib.Logic.Equiv.List
import Pane.AcceptRefinement
import Pane.FrameLimits
import Pane.Verdicts

namespace Pane.AcceptedConnections

open Pane.HashTable Pane.Messages Pane.Server Pane.ServerActor Pane.Framing Pane.CoreRequest
open Pane.ConnectionSource Pane.Links Pane.Streams Pane.Handshake Pane.Machines Pane.SteadyRuns
open Pane.WireSystem Pane.WireHistory Pane.InOrderDelivery Pane.Accepting Pane.HandshakeRuns
open Pane.AcceptRefinement Pane.WireProgress Pane.PostcardFormat

variable {site : Site} {i : Nat} {x : State}

theorem admits_byteStream : Admits byteStream where
  empty _ := rfl
  send _ := rfl
  receive _ := rfl
  drift _ n := ⟨n, rfl⟩

noncomputable def bytesAt : Nat → Bytes :=
  have : Countable UInt8 := Function.Injective.countable fun _ _ => UInt8.toNat_inj.mp
  Classical.choose (exists_surjective_nat Bytes)

theorem bytesAt_surjective : Function.Surjective bytesAt :=
  have : Countable UInt8 := Function.Injective.countable fun _ _ => UInt8.toNat_inj.mp
  Classical.choose_spec (exists_surjective_nat Bytes)

noncomputable def openStream (limit : UInt32) : Link WriteMessage Stream :=
  { byteStream limit with
    drift := fun n q =>
      if n % 2 = 0 then (byteStream limit).drift (n / 2) q
      else { q with transit := q.transit ++ bytesAt (n / 2) } }

theorem admits_openStream : Admits openStream where
  empty _ := rfl
  send _ := rfl
  receive _ := rfl
  drift limit n := by
    refine ⟨2 * n, ?_⟩
    funext q
    show (if 2 * n % 2 = 0 then (byteStream limit).drift (2 * n / 2) q else _) = _
    rw [if_pos (by omega), Nat.mul_div_cancel_left n Nat.two_pos]

theorem leaky_openStream : Leaky openStream := by
  intro limit bytes
  obtain ⟨n, rfl⟩ := bytesAt_surjective bytes
  refine ⟨2 * n + 1, fun q => ?_⟩
  show (if (2 * n + 1) % 2 = 0 then _ else { q with transit := q.transit ++ bytesAt ((2 * n + 1) / 2) }) = _
  rw [if_neg (by omega), show (2 * n + 1) / 2 = n by omega]

theorem exists_negotiated (hx : Numbered x) (hids : x.nextConnId ≤ 2 ^ 64) :
    ∃ limits, Negotiated limits x := by
  have hlimit : ∀ c, ∃ limit, ∀ i k hello, (x.lines i).accept.connId = some k →
      (x.lines i).accept.hello = some hello → connection k = c → limit = hello.maxMessageSize := by
    intro c
    by_cases hc : ∃ i k hello, (x.lines i).accept.connId = some k ∧
        (x.lines i).accept.hello = some hello ∧ connection k = c
    · obtain ⟨i, k, hello, hk, hhello, rfl⟩ := hc
      refine ⟨hello.maxMessageSize, fun j l hello' hl hhello' heq => ?_⟩
      have hsame := connection_inj (Nat.lt_of_lt_of_le (hx.below hl).2 hids)
        (Nat.lt_of_lt_of_le (hx.below hk).2 hids) heq
      rw [hsame] at hl
      rw [hx.distinct hl hk] at hhello'
      cases hhello.symm.trans hhello'
      rfl
    · exact ⟨0, fun j l hello' hl hhello' heq => absurd ⟨j, l, hello', hl, hhello', heq⟩ hc⟩
  choose limits hlimits using hlimit
  exact ⟨limits, hids, fun hk hhello => hlimits _ _ _ _ hk hhello rfl⟩

section Events

variable {Q : Type} {net : Setting Q}

theorem posted_reached {ok : System Q → WireSystem.Label → Prop} {y : System Q}
    (h : Reached net ok y) :
    y.server = actorLoop net.pc net.accepts y.past ∧
      ∃ known gone, Posted known gone (System.events y) ∧ Phases known gone y.wires := by
  induction h with
  | start hx =>
    cases hx
    exact ⟨rfl, [], [], .none, fun c => by simp [System.new, Wire.new]⟩
  | @step x y label _ _ hstep ih =>
    obtain ⟨hserver, known, gone, hposted, hphases⟩ := ih
    cases label with
    | wire conn action =>
      obtain ⟨⟨w, events⟩, hrun, hy⟩ := Option.bind_eq_some_iff.mp hstep
      cases hy
      refine ⟨hserver, ?_⟩
      have hevents : System.events { x with
          wires := Function.update x.wires conn w, queue := x.queue ++ events } =
          System.events x ++ events := (List.append_assoc ..).symm
      rw [hevents]
      exact posted_move hposted hphases (move_of_run hrun)
    | act order =>
      simp only [step_wires, System.step, System.act] at hstep
      split at hstep
      · cases hstep
      · next event queue hqueue =>
        cases hstep
        have hevents : (x.past ++ [(⟨event, order⟩ : Input)]).map Input.event ++ queue = System.events x := by
          simp [System.events, hqueue]
        refine ⟨?_, known, gone, ?_, hphases⟩
        · simp only [hserver, actorLoop, List.foldl_append, List.foldl_cons, List.foldl_nil]
        · rw [System.events, hevents]
          exact hposted

end Events

/-- Whoever connects and whatever bytes they send, before, during and after the
handshake: the actor hears of every connection once that it has joined, then of its
frames, and last that it has left, and it never takes one connection for another. -/
theorem connections_in_order (hsane : Sane site)
    (hx : (machine site).Reachable (fun _ _ => True) x) (hids : x.nextConnId ≤ 2 ^ 64) :
    x.server = actorLoop site.pc site.accepts x.past ∧ Orderly [] x.past ∧
      ∃ known gone, Posted known gone (x.past.map Input.event ++ x.queue) := by
  obtain ⟨limits, hnegotiated⟩ := exists_negotiated (numbered_reachable hx).1 hids
  have hsimulation := simulation limits admits_openStream (fun _ _ => leaky_openStream) hsane
  obtain ⟨y, hy, hrefines⟩ := hsimulation.reachable hx hnegotiated
  obtain ⟨hserver, known, gone, hposted, -⟩ := posted_reached hy
  rw [System.events, hrefines.past, hrefines.queue] at hposted
  rw [hrefines.server, hrefines.past] at hserver
  obtain ⟨known', gone', hpast⟩ := hposted.initially (List.prefix_append _ _)
  have hsteady : Steady site.pc site.accepts known' gone' x.past := steady_of_posted hpast rfl
  exact ⟨hserver, orderly_of_legal hsteady.legal, known, gone, hposted⟩

/-- A client of the library and someone who sends bytes: both join, are heard and leave. -/
def stay : List Accepting.Label :=
  [.handshake 0 .sendHello, .wire 0 (.driftUp 200),
    .handshake 2 (.arrive (frameBytes 0 (helloItem visitor) ++ frameBytes 5 [7])),
    .handshake 0 .readHello, .handshake 2 .readHello, .handshake 0 .allocate,
    .handshake 2 .allocate, .handshake 0 .welcome, .handshake 2 .welcome,
    .wire 0 (.driftDown 200), .handshake 0 .readDecision, .wire 0 .greet,
    .wire 2 (.driftDown 200), .wire 2 .greet, .wire 0 (.driftDown 200), .wire 2 (.driftDown 200),
    .wire 0 (.register ⟨[]⟩), .wire 0 (.send (3, [8])), .wire 2 (.register ⟨[]⟩),
    .wire 2 .serverRead, .act .stored, .wire 0 (.driftUp 100), .wire 0 .serverRead, .act .stored,
    .act .stored, .wire 2 .serverLeave, .act .stored, .act .stored, .wire 0 .serverLeave,
    .act .stored]

def stayed : State := ((machine visit).run stay State.new).get (by decide +kernel)

theorem connections_in_order_visit :
    stayed.past.map Input.event =
      [.newConnection ⟨1⟩ ⟨[]⟩, .newConnection ⟨2⟩ ⟨[]⟩, .frame ⟨2⟩ 5 [7], .frame ⟨1⟩ 3 [8],
        .disconnected ⟨2⟩, .disconnected ⟨1⟩] ∧
    stayed.nextConnId ≤ 2 ^ 64 ∧
    stayed.server = actorLoop visit.pc visit.accepts stayed.past ∧ Orderly [] stayed.past ∧
      ∃ known gone, Posted known gone (stayed.past.map Input.event ++ stayed.queue) := by
  have hids : stayed.nextConnId ≤ 2 ^ 64 := by decide +kernel
  have hx : (machine visit).Reachable (fun _ _ => True) stayed :=
    Machine.Reachable.run (fun _ _ _ => trivial) (.start rfl) (Option.some_get _).symm
  exact ⟨by decide +kernel, hids, connections_in_order (sane_of_visitCbor rfl) hx hids⟩

def guests : Site :=
  { visit with
    hellos := fun i => if i = 1 then some outdated else if i = 2 then some modest else some visitor }

def arrival : List Accepting.Label :=
  [.handshake 0 .sendHello, .wire 0 (.driftUp 200), .handshake 1 .sendHello,
    .handshake 2 .sendHello, .wire 2 (.driftUp 200), .handshake 0 .readHello,
    .handshake 2 .readHello, .handshake 0 .allocate, .handshake 2 .allocate,
    .handshake 0 .welcome, .handshake 2 .welcome, .wire 0 (.driftDown 200), .wire 0 .greet,
    .handshake 0 .readDecision, .wire 0 (.driftDown 100), .wire 0 .paneRead,
    .wire 2 (.driftDown 200), .wire 2 .greet, .handshake 2 .readDecision,
    .wire 2 (.driftDown 100), .wire 2 .paneRead]

def seated : State := ((machine guests).run arrival State.new).get (by decide +kernel)

theorem reachable_seated : (machine guests).Reachable (fun _ _ => True) seated :=
  Machine.Reachable.run (fun _ _ _ => trivial) (.start rfl) (Option.some_get _).symm

theorem guests_clients (i : Nat) : guests.hellos i ≠ none := by
  simp only [guests]
  split
  · simp
  · split <;> simp

theorem exists_wires (hsane : Sane site) (hclients : ∀ i, site.hellos i ≠ none)
    (hx : (machine site).Reachable (fun _ _ => True) x) {limits : ConnectionId → UInt32}
    (hnegotiated : Negotiated limits x) :
    ∃ y, Reached (overStreams site.pc site.accepts limits) (fun _ _ => True) y ∧
      Refines site (overStreams site.pc site.accepts limits) x y := by
  have hsimulation := simulation limits admits_byteStream
    (fun i hnone => absurd hnone (hclients i)) hsane
  obtain ⟨y, hy, hrefines⟩ := hsimulation.reachable hx hnegotiated
  exact ⟨y, hy, hrefines⟩

/-- The system of clients and calls of `accept`, with its handshakes, refines the
system of wires: behind the handshakes every connection is a wire over a byte stream
with the limit of its Hello, of which not a byte is lost or added. -/
theorem handshakes_refine_wires (hsane : Sane site) (hclients : ∀ i, site.hellos i ≠ none)
    (hx : (machine site).Reachable (fun _ _ => True) x) (hids : x.nextConnId ≤ 2 ^ 64) :
    ∃ limits y, Negotiated limits x ∧
      Reached (overStreams site.pc site.accepts limits) (fun _ _ => True) y ∧
      Refines site (overStreams site.pc site.accepts limits) x y := by
  obtain ⟨limits, hnegotiated⟩ := exists_negotiated (numbered_reachable hx).1 hids
  obtain ⟨y, hy, hrefines⟩ := exists_wires hsane hclients hx hnegotiated
  exact ⟨limits, y, hnegotiated, hy, hrefines⟩

theorem handshakes_refine_wires_guests :
    (seated.lines 0).client = .connected (welcome visitor) ∧
    ∃ limits y, Negotiated limits seated ∧
      Reached (overStreams guests.pc guests.accepts limits) (fun _ _ => True) y ∧
      Refines guests (overStreams guests.pc guests.accepts limits) seated y :=
  ⟨by decide +kernel, handshakes_refine_wires (sane_of_visitCbor rfl) guests_clients reachable_seated
    (by decide +kernel)⟩

section Reading

variable {limit : UInt32}

variable (limit) in
/-- What a pane has heard are the first frames that were written to it, and they
are within its limit. -/
def Heard (pc : Postcard) (w : Wire Stream) : Prop :=
  (∀ f ∈ w.wrote, Measured f) → ∃ front pending, w.wrote = front ++ pending ∧
    w.delivered = front.filterMap (arrived pc) ∧ (∀ f ∈ front, Fits limit f) ∧
    (w.deaf = false → Underway w.down pending)

theorem heard_move {net : Setting Stream} {conn : ConnectionId} (hlink : net.link conn = byteStream limit)
    {w w' : Wire Stream} {action : Action} {events : List ServerEvent} (h : Heard limit net.pc w)
    (hmove : WireSystem.Move net conn w action w' events) : Heard limit net.pc w' := by
  -- the two steps in which the server writes
  have hwrites : ∀ {frame down}, (net.link conn).send frame w.down = some down →
      (∀ f ∈ w.wrote ++ [frame], Measured f) → ∃ front pending, w.wrote ++ [frame] = front ++ pending ∧
        w.delivered = front.filterMap (arrived net.pc) ∧ (∀ f ∈ front, Fits limit f) ∧
        (w.deaf = false → Underway down pending) := by
    intro frame down hsend hmeasured
    obtain ⟨front, pending, hwrote, hdelivered, hfits, hcarries⟩ :=
      h fun f hf => hmeasured f (List.mem_append_left _ hf)
    refine ⟨front, pending ++ [frame], by rw [hwrote, List.append_assoc], hdelivered, hfits,
      fun hhears => ?_⟩
    rw [hlink] at hsend
    exact (faithful_byteStream limit).send (hcarries hhears) (hmeasured frame (by simp)) hsend
  cases hmove with
  | greet bytes down hphase hbytes hsend => exact hwrites hsend
  | write frame channel down hphase hchannel hsend => exact hwrites hsend
  | driftDown n =>
    intro hmeasured
    obtain ⟨front, pending, hwrote, hdelivered, hfits, hcarries⟩ := h hmeasured
    refine ⟨front, pending, hwrote, hdelivered, hfits, fun hhears => ?_⟩
    rw [hlink]
    exact (faithful_byteStream limit).drift n (hcarries hhears)
  | deliver frame down deaf hhears hreceive =>
    intro hmeasured
    obtain ⟨front, pending, hwrote, hdelivered, hfits, hcarries⟩ := h hmeasured
    rw [hlink] at hreceive
    obtain ⟨rest, rfl, hrest⟩ := (faithful_byteStream limit).receive (hcarries hhears) hreceive
    refine ⟨front ++ [frame], rest, ?_, ?_, ?_, fun _ => hrest⟩
    · rw [List.append_assoc]
      exact hwrote
    · rw [List.filterMap_append, ← hdelivered]
      cases harrived : arrived net.pc frame <;> simp [harrived]
    · intro f hf
      obtain hf | hf := List.mem_append.mp hf
      · exact hfits f hf
      · rw [List.mem_singleton.mp hf]
        exact fits_of_receive hreceive
  | cut _ _ | deafen =>
    intro hmeasured
    obtain ⟨front, pending, hwrote, hdelivered, hfits, -⟩ := h hmeasured
    exact ⟨front, pending, hwrote, hdelivered, hfits, fun hhears => by cases hhears⟩
  | _ => exact h

theorem heard_reached {pc : Postcard} {accepts : Nat → Bool} {limits : ConnectionId → UInt32}
    {ok : System Stream → WireSystem.Label → Prop} {y : System Stream}
    (h : Reached (overStreams pc accepts limits) ok y) (c : ConnectionId) :
    Heard (limits c) pc (y.wires c) := by
  induction h generalizing c with
  | start hx =>
    cases hx
    exact fun _ => ⟨[], [], rfl, rfl, List.forall_mem_nil _, fun _ => ⟨rfl, List.forall_mem_nil _⟩⟩
  | @step x y label _ _ hstep ih =>
    cases label with
    | wire conn action =>
      obtain ⟨⟨w, events⟩, hrun, hy⟩ := Option.bind_eq_some_iff.mp hstep
      cases hy
      exact (Function.forall_update_iff x.wires (fun c w => Heard (limits c) pc w)).mpr
        ⟨heard_move rfl (ih conn) (move_of_run hrun), fun c _ => ih c⟩ c
    | act order =>
      simp only [step_wires, System.step, System.act] at hstep
      split at hstep
      · cases hstep
      · cases hstep
        exact ih c

end Reading

theorem first_wrote {Q : Type} {net : Setting Q} {fits : ConnectionId → WriteMessage → Prop}
    {Carries : ConnectionId → Q → List WriteMessage → Prop} {y : System Q}
    (h : Flows net fits Carries y) {ready : Bytes}
    (hready : net.pc.controlToAllocvec (.lifecycle .ready) = some ready) {c : ConnectionId}
    {first : WriteMessage} {rest : List WriteMessage} (hwrote : (y.wires c).wrote = first :: rest) :
    first = (0, ready) := by
  have hphase : (y.wires c).phase ≠ .new := by
    intro hnew
    cases hwrote.symm.trans (h.early c hnew)
  have hgreeting : greeting net.pc (y.wires c).phase = [(0, ready)] := by
    unfold greeting
    split
    · next hnew => exact absurd hnew hphase
    · rw [hready]
      rfl
  have hchannels := h.channels c
  rw [hgreeting, hwrote] at hchannels
  exact (List.cons.inj hchannels).1

theorem hello_of_connId {accept : Accept} {k : Nat} (h : accept.connId = some k) :
    ∃ hello, accept.hello = some hello := by
  cases accept with
  | welcoming hello connId => exact ⟨hello, rfl⟩
  | serving hello connId => exact ⟨hello, rfl⟩
  | _ => cases h

theorem delivered_ready (hsane : Sane site) (hpc : site.pc.ControlRoundTrip)
    (hclients : ∀ i, site.hellos i ≠ none) (hx : (machine site).Reachable (fun _ _ => True) x)
    (hids : x.nextConnId ≤ 2 ^ 64) {hello : Handshake.Hello} (hhello : site.hellos i = some hello)
    {ready : Bytes} (hready : site.pc.controlToAllocvec (.lifecycle .ready) = some ready)
    (hmeasured : ∀ f ∈ (x.lines i).wire.wrote, Measured f) :
    (x.lines i).wire.delivered = [] ∨
      2 + ready.length ≤ hello.maxMessageSize.toNat ∧
        (x.lines i).wire.delivered.head? = some (.control (.lifecycle .ready)) := by
  have hsound := sound_reachable hsane hx i
  cases hk : (x.lines i).accept.connId with
  | none => exact .inl (hsound.fresh hk).delivered
  | some k =>
    obtain ⟨limits, hnegotiated⟩ := exists_negotiated (numbered_reachable hx).1 hids
    obtain ⟨y, hy, hrefines⟩ := exists_wires hsane hclients hx hnegotiated
    obtain ⟨down, hw, -⟩ := hrefines.lines hk
    have hflows := flows_reached (fun c => faithful_byteStream (limits c)) hy
    have hheard := heard_reached hy (connection k)
    rw [hw] at hheard
    obtain ⟨front, pending, hwrote, hdelivered, hfits, -⟩ := hheard hmeasured
    cases front with
    | nil => exact .inl hdelivered
    | cons first front =>
      have hfirst := first_wrote hflows hready (c := connection k) (by rw [hw]; exact hwrote)
      subst hfirst
      obtain ⟨hello', hhello'⟩ := hello_of_connId hk
      have hlimit := hnegotiated.limits hk hhello'
      rw [hsound.heard hhello hhello'] at hlimit
      have hfirst := hfits _ List.mem_cons_self
      rw [hlimit] at hfirst
      obtain ⟨bytes, hto, hfrom⟩ := hpc (.lifecycle .ready)
      cases hready.symm.trans hto
      refine .inr ⟨hfirst, ?_⟩
      have harrived : arrived site.pc (0, ready) = some (.control (.lifecycle .ready)) := by
        simp [arrived, classifyFrame, hfrom]
      show (x.lines i).wire.delivered.head? = _
      rw [show (x.lines i).wire.delivered = _ from hdelivered, List.filterMap_cons_some harrived]
      rfl

/-- The server takes any limit: a client of version 1 is not rejected, and the only
answer to it is the Welcome with the limit that it asked for. The first message that it
hears is then `Ready`, and if its limit is too small for `Ready` it hears nothing at
all, ever. -/
theorem first_message_ready (hsane : Sane site) (hpc : site.pc.ControlRoundTrip)
    (hclients : ∀ i, site.hellos i ≠ none) (hx : (machine site).Reachable (fun _ _ => True) x)
    (hids : x.nextConnId ≤ 2 ^ 64) {hello : Handshake.Hello} (hhello : site.hellos i = some hello)
    {ready : Bytes} (hready : site.pc.controlToAllocvec (.lifecycle .ready) = some ready)
    (hmeasured : ∀ f ∈ (x.lines i).wire.wrote, Measured f) :
    (hello.version = 1 →
      (∀ r, (x.lines i).client ≠ .failed (.rejected r)) ∧
      (∀ d, (x.lines i).accept.decision = some d → d = .ok (welcome hello)) ∧
      (welcome hello).maxMessageSize = hello.maxMessageSize) ∧
    (hello.maxMessageSize.toNat < 2 + ready.length → (x.lines i).wire.delivered = []) ∧
    ((x.lines i).wire.delivered = [] ∨
      2 + ready.length ≤ hello.maxMessageSize.toNat ∧
        (x.lines i).wire.delivered.head? = some (.control (.lifecycle .ready))) := by
  have hsound := sound_reachable hsane hx i
  have hheard := delivered_ready hsane hpc hclients hx hids hhello hready hmeasured
  refine ⟨fun hversion => ⟨?_, ?_, rfl⟩, fun hsmall => ?_, hheard⟩
  · intro r hclient
    have hanswer := hsound.decision_eq hhello (hsound.refused hclient)
    rw [decision_ok hversion] at hanswer
    cases hanswer
  · intro d hd
    rw [hsound.decision_eq hhello hd, decision_ok hversion]
  · exact hheard.resolve_right fun hfits => Nat.not_le_of_lt hsmall hfits.1

theorem first_message_ready_guests :
    (seated.lines 0).wire.delivered.head? = some (.control (.lifecycle .ready)) ∧
    modest.maxMessageSize.toNat < 2 + (controlMessage.encode (.lifecycle .ready)).length ∧
    (seated.lines 2).client = .connected (welcome modest) ∧
    (seated.lines 2).wire.wrote = [(0, controlMessage.encode (.lifecycle .ready))] ∧
    (seated.lines 2).wire.delivered = [] := by
  have hready (i : Nat) (hello : Handshake.Hello) (hhello : guests.hellos i = some hello) :=
    first_message_ready (i := i) (sane_of_visitCbor rfl) postcard_control guests_clients
      reachable_seated (by decide +kernel) hhello rfl
  have hdelivered : (seated.lines 0).wire.delivered ≠ [] := by decide +kernel
  have h0 := (hready 0 visitor rfl (by decide +kernel)).2.2
  have h2 := (hready 2 modest rfl (by decide +kernel)).2.1
  exact ⟨(h0.resolve_left hdelivered).2, by decide, by decide +kernel, by decide +kernel,
    h2 (by decide)⟩

end Pane.AcceptedConnections
