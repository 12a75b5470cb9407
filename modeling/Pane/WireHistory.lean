import Pane.WireSystem

namespace Pane.WireHistory

open Pane.HashTable Pane.Messages Pane.Server Pane.ServerActor Pane.Framing Pane.CoreRequest
open Pane.ConnectionSource Pane.Links Pane.Overflow Pane.SteadyRuns Pane.WireSystem

variable {Q : Type} {net : Setting Q}

def System.events (x : System Q) : List ServerEvent := x.past.map Input.event ++ x.queue

def frameOf (conn : ConnectionId) : ServerEvent → Option WriteMessage
  | .frame c service payload => if c = conn then some (service, payload) else none
  | _ => none

def framesOf (conn : ConnectionId) (events : List ServerEvent) : List WriteMessage :=
  events.filterMap (frameOf conn)

@[simp] theorem framesOf_append (conn : ConnectionId) (events more : List ServerEvent) :
    framesOf conn (events ++ more) = framesOf conn events ++ framesOf conn more :=
  List.filterMap_append

def greeting (pc : Postcard) : Phase → List WriteMessage
  | .new => []
  | _ => ((pc.controlToAllocvec (.lifecycle .ready)).map (fun bytes => (0, bytes))).toList

section Wires

variable {fits : ConnectionId → WriteMessage → Prop}
  {Carries : ConnectionId → Q → List WriteMessage → Prop}
  {conn : ConnectionId} {w w' : Wire Q} {action : Action} {events posted : List ServerEvent}

variable (net fits Carries) in
/-- Both directions of a connection keep what goes in: it has come out or it is
under way, unless the reader is done. -/
structure Conveys (conn : ConnectionId) (events : List ServerEvent) (w : Wire Q) : Prop where
  up : (∀ f ∈ w.taken, fits conn f) → ∃ pending,
    w.taken = framesOf conn events ++ pending ∧ (w.phase ≠ .left → Carries conn w.up pending)
  down : (∀ f ∈ w.wrote, fits conn f) → ∃ front pending, w.wrote = front ++ pending ∧
    w.delivered = front.filterMap (arrived net.pc) ∧ (w.deaf = false → Carries conn w.down pending)

theorem conveys_up (hlink : ∀ c, Faithful (net.link c) (fits c) (Carries c))
    (h : Conveys net fits Carries conn events w) (hmove : Move net conn w action w' posted)
    (hfits : ∀ f ∈ w'.taken, fits conn f) : ∃ pending,
      w'.taken = framesOf conn (events ++ posted) ++ pending ∧
        (w'.phase ≠ .left → Carries conn w'.up pending) := by
  have hold : (∀ f ∈ w.taken, fits conn f) → framesOf conn posted = [] → ∃ pending,
      w.taken = framesOf conn (events ++ posted) ++ pending ∧
        (w.phase ≠ .left → Carries conn w.up pending) := by
    intro hfits hnone
    rw [framesOf_append, hnone, List.append_nil]
    exact h.up hfits
  cases hmove with
  | greet bytes down hphase hbytes hsend =>
    obtain ⟨pending, htaken, hcarries⟩ := hold hfits rfl
    exact ⟨pending, htaken, fun _ => hcarries (by rw [hphase]; exact nofun)⟩
  | register hello hphase =>
    obtain ⟨pending, htaken, hcarries⟩ := hold hfits rfl
    exact ⟨pending, htaken, fun _ => hcarries (by rw [hphase]; exact nofun)⟩
  | driftUp n =>
    obtain ⟨pending, htaken, hcarries⟩ := hold hfits rfl
    exact ⟨pending, htaken, fun hphase => (hlink conn).drift n (hcarries hphase)⟩
  | leave hphase =>
    obtain ⟨pending, htaken, -⟩ := hold hfits rfl
    exact ⟨pending, htaken, fun hleft => absurd rfl hleft⟩
  | broken up hphase hreceive =>
    obtain ⟨pending, htaken, -⟩ := hold hfits rfl
    exact ⟨pending, htaken, fun hleft => absurd rfl hleft⟩
  | write frame channel down hphase hchannel hsend => exact hold hfits rfl
  | driftDown n => exact hold hfits rfl
  | deafen => exact hold hfits rfl
  | deliver frame down deaf hhears hreceive => exact hold hfits rfl
  | cut down hreceive => exact hold hfits rfl
  | send frame up hsend =>
    obtain ⟨pending, htaken, hcarries⟩ := hold (fun f hf => hfits f (List.mem_append_left _ hf)) rfl
    refine ⟨pending ++ [frame], ?_, fun hphase => ?_⟩
    · rw [htaken, List.append_assoc]
    · exact (hlink conn).send (hcarries hphase) (hfits frame (by simp)) hsend
  | read frame up hphase hreceive =>
    obtain ⟨pending, htaken, hcarries⟩ := h.up hfits
    obtain ⟨rest, rfl, hrest⟩ :=
      (hlink conn).receive (hcarries (by rw [hphase]; exact nofun)) hreceive
    refine ⟨rest, ?_, fun _ => hrest⟩
    have hposted : framesOf conn [.frame conn frame.1 frame.2] = [frame] := by
      simp [framesOf, frameOf]
    rw [htaken, framesOf_append, hposted, List.append_assoc]
    rfl

theorem conveys_down (hlink : ∀ c, Faithful (net.link c) (fits c) (Carries c))
    (h : Conveys net fits Carries conn events w) (hmove : Move net conn w action w' posted)
    (hfits : ∀ f ∈ w'.wrote, fits conn f) : ∃ front pending, w'.wrote = front ++ pending ∧
      w'.delivered = front.filterMap (arrived net.pc) ∧
        (w'.deaf = false → Carries conn w'.down pending) := by
  -- the two steps in which the server writes
  have hwrites : ∀ {frame down}, (∀ f ∈ w.wrote ++ [frame], fits conn f) →
      (net.link conn).send frame w.down = some down →
      ∃ front pending, w.wrote ++ [frame] = front ++ pending ∧
        w.delivered = front.filterMap (arrived net.pc) ∧
          (w.deaf = false → Carries conn down pending) := by
    intro frame down hfits hsend
    obtain ⟨front, pending, hwrote, hdelivered, hcarries⟩ :=
      h.down (fun f hf => hfits f (List.mem_append_left _ hf))
    refine ⟨front, pending ++ [frame], ?_, hdelivered,
      fun hdeaf => (hlink conn).send (hcarries hdeaf) (hfits frame (by simp)) hsend⟩
    rw [hwrote, List.append_assoc]
  cases hmove with
  | greet bytes down hphase hbytes hsend => exact hwrites hfits hsend
  | write frame channel down hphase hchannel hsend => exact hwrites hfits hsend
  | register hello hphase => exact h.down hfits
  | send frame up hsend => exact h.down hfits
  | driftUp n => exact h.down hfits
  | read frame up hphase hreceive => exact h.down hfits
  | broken up hphase hreceive => exact h.down hfits
  | leave hphase => exact h.down hfits
  | deafen =>
    obtain ⟨front, pending, hwrote, hdelivered, -⟩ := h.down hfits
    exact ⟨front, pending, hwrote, hdelivered, nofun⟩
  | driftDown n =>
    obtain ⟨front, pending, hwrote, hdelivered, hcarries⟩ := h.down hfits
    exact ⟨front, pending, hwrote, hdelivered, fun hdeaf => (hlink conn).drift n (hcarries hdeaf)⟩
  | cut down hreceive =>
    obtain ⟨front, pending, hwrote, hdelivered, -⟩ := h.down hfits
    exact ⟨front, pending, hwrote, hdelivered, nofun⟩
  | deliver frame down deaf hhears hreceive =>
    obtain ⟨front, pending, hwrote, hdelivered, hcarries⟩ := h.down hfits
    obtain ⟨rest, rfl, hrest⟩ := (hlink conn).receive (hcarries hhears) hreceive
    refine ⟨front ++ [frame], rest, ?_, ?_, fun _ => hrest⟩
    · rw [List.append_assoc]
      exact hwrote
    · rw [List.filterMap_append, ← hdelivered]
      cases harrived : arrived net.pc frame <;> simp [harrived]

theorem conveys_move (hlink : ∀ c, Faithful (net.link c) (fits c) (Carries c))
    (h : Conveys net fits Carries conn events w) (hmove : Move net conn w action w' posted) :
    Conveys net fits Carries conn (events ++ posted) w' :=
  ⟨conveys_up hlink h hmove, conveys_down hlink h hmove⟩

theorem framesOf_posted {c : ConnectionId} (hmove : Move net conn w action w' posted)
    (hc : c ≠ conn) : framesOf c posted = [] := by
  cases hmove with
  | read frame up hphase hreceive => simp [framesOf, frameOf, hc.symm]
  | _ => rfl

end Wires

def Phases (known gone : List ConnectionId) (wires : ConnectionId → Wire Q) : Prop :=
  ∀ c, (c ∈ known ↔ (wires c).phase = .joined ∨ (wires c).phase = .left) ∧
    (c ∈ gone ↔ (wires c).phase = .left)

theorem phases_update {known gone known' gone' : List ConnectionId} {wires : ConnectionId → Wire Q}
    {conn : ConnectionId} {w : Wire Q} (h : Phases known gone wires)
    (hknown : ∀ c, c ≠ conn → (c ∈ known' ↔ c ∈ known) ∧ (c ∈ gone' ↔ c ∈ gone))
    (hconn : (conn ∈ known' ↔ w.phase = .joined ∨ w.phase = .left) ∧
      (conn ∈ gone' ↔ w.phase = .left)) :
    Phases known' gone' (Function.update wires conn w) := by
  refine (Function.forall_update_iff wires (fun c w => (c ∈ known' ↔ w.phase = .joined ∨ w.phase = .left) ∧
    (c ∈ gone' ↔ w.phase = .left))).mpr ⟨hconn, fun c hc => ?_⟩
  rw [(hknown c hc).1, (hknown c hc).2]
  exact h c

theorem posted_move {known gone : List ConnectionId} {wires : ConnectionId → Wire Q}
    {conn : ConnectionId} {w : Wire Q} {action : Action} {events posted : List ServerEvent}
    (h : Posted known gone events) (hphases : Phases known gone wires)
    (hmove : Move net conn (wires conn) action w posted) :
    ∃ known' gone', Posted known' gone' (events ++ posted) ∧
      Phases known' gone' (Function.update wires conn w) := by
  obtain ⟨hknown, hgone⟩ := hphases conn
  have hsame : w.phase = (wires conn).phase → posted = [] → ∃ known' gone',
      Posted known' gone' (events ++ posted) ∧ Phases known' gone' (Function.update wires conn w) := by
    intro hphase hposted
    refine ⟨known, gone, ?_, phases_update hphases (fun _ _ => ⟨Iff.rfl, Iff.rfl⟩) ?_⟩
    · rwa [hposted, List.append_nil]
    · rw [hphase]
      exact ⟨hknown, hgone⟩
  have hleave : (wires conn).phase = .joined → w.phase = .left → posted = [.disconnected conn] →
      ∃ known' gone', Posted known' gone' (events ++ posted) ∧
        Phases known' gone' (Function.update wires conn w) := by
    intro hbefore hafter hposted
    rw [hbefore] at hknown hgone
    have hmem : conn ∈ known := hknown.mpr (.inl rfl)
    refine ⟨known, conn :: gone, hposted ▸ .leave conn h hmem (fun hg => nomatch hgone.mp hg),
      phases_update hphases (fun c hc => ⟨Iff.rfl, by simp [hc]⟩) ?_⟩
    rw [hafter]
    exact ⟨by simp [hmem], by simp⟩
  cases hmove with
  | greet bytes down hphase hbytes hsend =>
    refine ⟨known, gone, ?_, phases_update hphases (fun _ _ => ⟨Iff.rfl, Iff.rfl⟩) ?_⟩
    · rwa [List.append_nil]
    · rw [hphase] at hknown hgone
      exact ⟨by simpa using hknown, by simpa using hgone⟩
  | register hello hphase =>
    rw [hphase] at hknown hgone
    have hnew : conn ∉ known := by simpa using hknown
    refine ⟨conn :: known, gone, .join conn hello h hnew,
      phases_update hphases (fun c hc => ⟨by simp [hc], Iff.rfl⟩) ?_⟩
    exact ⟨by simp, by simpa using hgone⟩
  | read frame up hphase hreceive =>
    rw [hphase] at hknown hgone
    have hmem : conn ∈ known := hknown.mpr (.inl rfl)
    refine ⟨known, gone, .frame conn frame.1 frame.2 h hmem (fun hg => nomatch hgone.mp hg),
      phases_update hphases (fun _ _ => ⟨Iff.rfl, Iff.rfl⟩) ?_⟩
    show (conn ∈ known ↔ (wires conn).phase = .joined ∨ (wires conn).phase = .left) ∧
      (conn ∈ gone ↔ (wires conn).phase = .left)
    rw [hphase]
    exact ⟨hknown, hgone⟩
  | broken up hphase hreceive => exact hleave hphase rfl rfl
  | leave hphase => exact hleave hphase rfl rfl
  | _ => exact hsame rfl rfl

section Runs

variable {fits : ConnectionId → WriteMessage → Prop}
  {Carries : ConnectionId → Q → List WriteMessage → Prop}

variable (net fits Carries) in
structure Flows (x : System Q) : Prop where
  server : x.server = actorLoop net.pc net.accepts x.past
  posted : ∃ known gone, Posted known gone (System.events x) ∧ Phases known gone x.wires
  wires : ∀ c, Conveys net fits Carries c (System.events x) (x.wires c)
  early : ∀ c, (x.wires c).phase = .new → (x.wires c).wrote = []
  channels : ∀ c, (x.wires c).wrote ++ (x.wires c).channel =
    greeting net.pc (x.wires c).phase ++ enqueued x.server.attempts c

theorem flows_new (hlink : ∀ c, Faithful (net.link c) (fits c) (Carries c)) :
    Flows net fits Carries (System.new net) where
  server := rfl
  posted := ⟨[], [], .none, fun c => by simp [System.new, Wire.new]⟩
  wires c := ⟨fun _ => ⟨[], rfl, fun _ => (hlink c).empty⟩,
    fun _ => ⟨[], [], rfl, rfl, fun _ => (hlink c).empty⟩⟩
  early _ _ := rfl
  channels _ := rfl

theorem channel_move {conn : ConnectionId} {w w' : Wire Q} {action : Action}
    {posted : List ServerEvent} {took : List WriteMessage} (hmove : Move net conn w action w' posted)
    (hearly : w.phase = .new → w.wrote = [])
    (h : w.wrote ++ w.channel = greeting net.pc w.phase ++ took) :
    (w'.phase = .new → w'.wrote = []) ∧
      w'.wrote ++ w'.channel = greeting net.pc w'.phase ++ took := by
  cases hmove with
  | greet bytes down hphase hbytes hsend =>
    refine ⟨nofun, ?_⟩
    rw [hphase, hearly hphase] at h
    rw [hearly hphase]
    simp only [greeting, hbytes, Option.map_some, Option.toList_some, List.nil_append] at h ⊢
    rw [h]
  | register hello hphase =>
    refine ⟨nofun, ?_⟩
    rw [hphase] at h
    exact h
  | write frame channel down hphase hchannel hsend =>
    refine ⟨fun hnew => ?_, ?_⟩
    · obtain hphase | hphase := hphase
      · cases hphase.symm.trans hnew
      · cases hphase.symm.trans hnew
    · rw [hchannel] at h
      rw [List.append_assoc]
      exact h
  | broken up hphase hreceive =>
    refine ⟨nofun, ?_⟩
    rw [hphase] at h
    exact h
  | leave hphase =>
    refine ⟨nofun, ?_⟩
    rw [hphase] at h
    exact h
  | _ => exact ⟨hearly, h⟩

theorem enqueued_append (attempts more : List Attempt) (conn : ConnectionId) :
    enqueued (attempts ++ more) conn = enqueued attempts conn ++ enqueued more conn := by
  simp [enqueued, acceptedFor]

theorem flows_wire (hlink : ∀ c, Faithful (net.link c) (fits c) (Carries c)) {x : System Q}
    (h : Flows net fits Carries x) {conn : ConnectionId} {w : Wire Q} {action : Action}
    {posted : List ServerEvent} (hmove : Move net conn (x.wires conn) action w posted) :
    Flows net fits Carries
      { x with wires := Function.update x.wires conn w, queue := x.queue ++ posted } := by
  have hevents : ∀ wires : ConnectionId → Wire Q,
      System.events ⟨wires, x.queue ++ posted, x.past, x.server⟩ = System.events x ++ posted :=
    fun _ => (List.append_assoc ..).symm
  obtain ⟨known, gone, hposted, hphases⟩ := h.posted
  have hchannel := channel_move hmove (h.early conn) (h.channels conn)
  refine ⟨h.server, ?_, ?_, ?_, ?_⟩
  · rw [hevents]
    exact posted_move hposted hphases hmove
  · rw [hevents]
    refine (Function.forall_update_iff x.wires (fun c w => Conveys net fits Carries c _ w)).mpr
      ⟨conveys_move hlink (h.wires conn) hmove, fun c hc => ⟨?_, (h.wires c).down⟩⟩
    rw [framesOf_append, framesOf_posted hmove hc, List.append_nil]
    exact (h.wires c).up
  · exact (Function.forall_update_iff x.wires (fun _ w => w.phase = .new → w.wrote = [])).mpr
      ⟨hchannel.1, fun c _ => h.early c⟩
  · exact (Function.forall_update_iff x.wires (fun c w => w.wrote ++ w.channel =
      greeting net.pc w.phase ++ enqueued x.server.attempts c)).mpr
      ⟨hchannel.2, fun c _ => h.channels c⟩

theorem flows_act {x y : System Q} (h : Flows net fits Carries x) {order : HashOrder}
    (hact : x.act net order = some y) : Flows net fits Carries y := by
  unfold System.act at hact
  split at hact
  · cases hact
  · next event queue hqueue =>
    cases hact
    have hevents : ∀ wires server, System.events (Q := Q)
        ⟨wires, queue, x.past ++ [⟨event, order⟩], server⟩ = System.events x := by
      intro wires server
      simp [System.events, hqueue]
    obtain ⟨known, gone, hposted, hphases⟩ := h.posted
    refine ⟨?_, ?_, fun c => ?_, fun c => h.early c, fun c => ?_⟩
    · simp only [h.server, actorLoop, List.foldl_append, List.foldl_cons, List.foldl_nil]
    · rw [hevents]
      exact ⟨known, gone, hposted, hphases⟩
    · rw [hevents]
      exact ⟨(h.wires c).up, (h.wires c).down⟩
    · have hgrows := attempts_execs net.pc net.accepts x.server
        (stepCalls net.pc net.accepts x.server ⟨event, order⟩)
      rw [← actorStep_eq] at hgrows
      obtain ⟨more, hmore⟩ := hgrows
      dsimp only
      rw [← hmore, List.drop_left, ← List.append_assoc, h.channels c, enqueued_append,
        List.append_assoc]

theorem flows_step (hlink : ∀ c, Faithful (net.link c) (fits c) (Carries c)) {x y : System Q}
    (h : Flows net fits Carries x) {label : Label} (hstep : x.step net label = some y) :
    Flows net fits Carries y := by
  cases label with
  | act order => exact flows_act h hstep
  | wire conn action =>
    obtain ⟨⟨w, posted⟩, hrun, hy⟩ := Option.bind_eq_some_iff.mp hstep
    cases hy
    exact flows_wire hlink h (move_of_run hrun)

theorem flows_reached (hlink : ∀ c, Faithful (net.link c) (fits c) (Carries c))
    {ok : System Q → Label → Prop} {x : System Q} (h : Reached net ok x) :
    Flows net fits Carries x := by
  induction h with
  | start hx =>
    cases hx
    exact flows_new hlink
  | step label _ _ hstep ih => exact flows_step hlink ih hstep

end Runs

end Pane.WireHistory
