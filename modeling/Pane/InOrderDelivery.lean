import Pane.WireHistory

namespace Pane.InOrderDelivery

open Pane.HashTable Pane.Messages Pane.Routing Pane.Server Pane.ServerActor Pane.Framing
open Pane.RouteSymmetry Pane.RouteTable Pane.Offers Pane.RoutePipes Pane.Overflow
open Pane.CoreRequest Pane.ConnectionSource Pane.Links Pane.Streams Pane.SteadyRuns
open Pane.WireSystem Pane.WireHistory Pane.PostcardFormat

variable {Q : Type} {net : Setting Q}

def acceptance : LooperMessage → Option UInt16
  | .control msg => acceptedSession msg
  | _ => none

/-- A pane sends on a session only after it was told that it has it. -/
def courteous (k : Endpoint) (x : System Q) : Label → Bool
  | .wire conn (.send frame) =>
    decide ((conn, frame.1) = k → k.2 ∈ (x.wires conn).delivered.filterMap acceptance)
  | _ => true

def deliveredOn (session : UInt16) : LooperMessage → Option Bytes
  | .service sessionId payload => if sessionId = session then some payload else none
  | _ => none

def payloadOn (service : UInt16) (frame : WriteMessage) : Option Bytes :=
  if frame.1 = service then some frame.2 else none

section Histories

structure Grows (x y : System Q) : Prop where
  past : x.past <+: y.past
  attempts : x.server.attempts <+: y.server.attempts
  taken : ∀ c, (x.wires c).taken <+: (y.wires c).taken
  wrote : ∀ c, (x.wires c).wrote <+: (y.wires c).wrote

theorem grows_move {conn : ConnectionId} {w w' : Wire Q} {action : Action}
    {posted : List ServerEvent} (hmove : Move net conn w action w' posted) :
    w.taken <+: w'.taken ∧ w.wrote <+: w'.wrote := by
  cases hmove with
  | greet bytes down hphase hbytes hsend => exact ⟨List.prefix_refl _, List.prefix_append _ _⟩
  | write frame channel down hphase hchannel hsend =>
    exact ⟨List.prefix_refl _, List.prefix_append _ _⟩
  | send frame up hsend => exact ⟨List.prefix_append _ _, List.prefix_refl _⟩
  | _ => exact ⟨List.prefix_refl _, List.prefix_refl _⟩

theorem grows_step {x y : System Q} {label : Label} (hstep : x.step net label = some y) :
    Grows x y := by
  cases label with
  | wire conn action =>
    obtain ⟨⟨w, posted⟩, hrun, hy⟩ := Option.bind_eq_some_iff.mp hstep
    cases hy
    obtain ⟨htaken, hwrote⟩ := grows_move (move_of_run hrun)
    refine ⟨List.prefix_refl _, List.prefix_refl _, ?_, ?_⟩
    · exact (Function.forall_update_iff x.wires (fun c w => (x.wires c).taken <+: w.taken)).mpr
        ⟨htaken, fun c _ => List.prefix_refl _⟩
    · exact (Function.forall_update_iff x.wires (fun c w => (x.wires c).wrote <+: w.wrote)).mpr
        ⟨hwrote, fun c _ => List.prefix_refl _⟩
  | act order =>
    simp only [System.step, System.act] at hstep
    split at hstep
    · cases hstep
    · next event queue hqueue =>
      cases hstep
      refine ⟨List.prefix_append _ _, ?_, fun c => List.prefix_refl _, fun c => List.prefix_refl _⟩
      show x.server.attempts <+: (actorStep net.pc net.accepts x.server ⟨event, order⟩).attempts
      rw [actorStep_eq]
      exact attempts_execs net.pc net.accepts x.server _

theorem taken_step {x y : System Q} {label : Label} (hstep : x.step net label = some y)
    {c : ConnectionId} {f : WriteMessage} (hf : f ∈ (y.wires c).taken) :
    f ∈ (x.wires c).taken ∨ label = .wire c (.send f) := by
  cases label with
  | act order =>
    simp only [System.step, System.act] at hstep
    split at hstep
    · cases hstep
    · cases hstep
      exact .inl hf
  | wire conn action =>
    obtain ⟨⟨w, posted⟩, hrun, hy⟩ := Option.bind_eq_some_iff.mp hstep
    cases hy
    by_cases hc : c = conn
    · subst hc
      replace hf : f ∈ (Function.update x.wires c w c).taken := hf
      rw [Function.update_self] at hf
      cases move_of_run hrun with
      | send frame up hsend =>
        obtain hf | hf := List.mem_append.mp hf
        · exact .inl hf
        · obtain rfl := List.mem_singleton.mp hf
          exact .inr rfl
      | _ => exact .inl hf
    · replace hf : f ∈ (Function.update x.wires conn w c).taken := hf
      rw [Function.update_of_ne hc] at hf
      exact .inl hf

end Histories

section Payloads

variable {pc : Postcard} {t : UInt16}

theorem deliveredOn_arrived (ht : t ≠ 0) (frame : WriteMessage) :
    (arrived pc frame).bind (deliveredOn t) = payloadOn t frame := by
  by_cases hzero : frame.1 = 0
  · have hne : frame.1 ≠ t := fun he => ht (he.symm.trans hzero)
    rw [payloadOn, if_neg hne]
    cases hmsg : pc.controlFromBytes frame.2 with
    | none => simp [arrived, classifyFrame, hzero, hmsg]
    | some msg => simp [arrived, classifyFrame, hzero, hmsg, deliveredOn]
  · simp [arrived, classifyFrame, hzero, deliveredOn, payloadOn]

theorem acceptance_arrived (frame : WriteMessage) :
    (arrived pc frame).bind acceptance =
      if frame.1 = 0 then (pc.controlFromBytes frame.2).bind acceptedSession else none := by
  by_cases hzero : frame.1 = 0
  · cases hmsg : pc.controlFromBytes frame.2 with
    | none => simp [arrived, classifyFrame, hzero, hmsg]
    | some msg => simp [arrived, classifyFrame, hzero, hmsg, acceptance]
  · simp [arrived, classifyFrame, hzero, acceptance]

theorem acceptance_greeting (hpc : pc.ControlRoundTrip) {phase : Phase} {frame : WriteMessage}
    (h : frame ∈ greeting pc phase) : (arrived pc frame).bind acceptance = none := by
  obtain ⟨bytes, hto, hfrom⟩ := hpc (.lifecycle .ready)
  cases phase with
  | new => cases h
  | _ =>
    simp only [greeting, hto, Option.map_some, Option.toList_some, List.mem_singleton] at h
    rw [h, acceptance_arrived, if_pos rfl, hfrom]
    rfl

theorem service_of_greeting {phase : Phase} {frame : WriteMessage}
    (h : frame ∈ greeting pc phase) : frame.1 = 0 := by
  cases phase with
  | new => cases h
  | _ =>
    obtain ⟨bytes, -, rfl⟩ := Option.map_eq_some_iff.mp (Option.mem_toList.mp h)
    rfl

theorem mem_enqueued {attempts : List Attempt} {conn : ConnectionId} {frame : WriteMessage}
    (h : frame ∈ enqueued attempts conn) :
    ⟨conn, frame.1, frame.2⟩ ∈ attempts.map Attempt.frame := by
  obtain ⟨o, ho, rfl⟩ := List.mem_map.mp h
  obtain ⟨a, ha, rfl⟩ := List.mem_map.mp ho
  obtain ⟨ha, hconn⟩ := List.mem_filter.mp ha
  simp only [decide_eq_true_eq] at hconn
  rw [← hconn.1]
  exact List.mem_map_of_mem ha

theorem mem_enqueued_of_offered {s : ServerState} (h : Unrefused s) {f : Outbound}
    (hf : f ∈ s.offered) : message f ∈ enqueued s.attempts f.conn := by
  obtain ⟨a, ha, rfl⟩ := List.mem_map.mp hf
  refine List.mem_map.mpr ⟨a.frame, ?_, rfl⟩
  refine List.mem_map.mpr ⟨a, ?_, rfl⟩
  simp [ha, h a ha]

theorem payloadOn_enqueued {s : ServerState} (h : Unrefused s) (k : Endpoint) :
    (enqueued s.attempts k.1).filterMap (payloadOn k.2) = deliveries s k := by
  have haccepted : s.attempts.filter (fun a => a.frame.conn = k.1 ∧ a.accepted = true) =
      s.attempts.filter (fun a => a.frame.conn = k.1) := by
    apply List.filter_congr
    intro a ha
    simp [h a ha]
  rw [enqueued, acceptedFor, haccepted, deliveries, ServerState.offered]
  induction s.attempts with
  | nil => rfl
  | cons a as ih =>
    by_cases hconn : a.frame.conn = k.1
    · by_cases hservice : a.frame.service = k.2
      · simpa [hconn, hservice, payloadOn, message] using ih
      · simpa [hconn, hservice, payloadOn, message] using ih
    · simpa [hconn] using ih

end Payloads

section Sessions

variable {fits : ConnectionId → WriteMessage → Prop}
  {Carries : ConnectionId → Q → List WriteMessage → Prop} {x : System Q} {k : Endpoint}

theorem filterMap_sentBy (k : Endpoint) (inputs : List Input) :
    inputs.filterMap (fun i => sentBy k i.event) =
      (framesOf k.1 (inputs.map Input.event)).filterMap (payloadOn k.2) := by
  rw [framesOf, List.filterMap_map, List.filterMap_filterMap]
  apply List.filterMap_congr
  rintro ⟨event, order⟩ -
  cases event with
  | frame conn service payload =>
    by_cases hconn : conn = k.1
    · by_cases hservice : service = k.2
      · simp [sentBy, frameOf, payloadOn, hconn, hservice]
      · simp [sentBy, frameOf, payloadOn, hconn, hservice, Prod.ext_iff]
    · simp [sentBy, frameOf, hconn, Prod.ext_iff]
  | _ => rfl

theorem taken_eq (h : Flows net fits Carries x) {c : ConnectionId}
    (hfits : ∀ f ∈ (x.wires c).taken, fits c f) :
    ∃ rest, (x.wires c).taken = framesOf c (x.past.map Input.event) ++ rest := by
  obtain ⟨pending, htaken, -⟩ := (h.wires c).up hfits
  rw [System.events, framesOf_append, List.append_assoc] at htaken
  exact ⟨_, htaken⟩

theorem silent_of_taken (h : Flows net fits Carries x) (hfits : ∀ f ∈ (x.wires k.1).taken, fits k.1 f)
    (hnone : ¬ ∃ f ∈ (x.wires k.1).taken, f.1 = k.2) : ∀ i ∈ x.past, sentBy k i.event = none := by
  obtain ⟨rest, htaken⟩ := taken_eq h hfits
  apply List.filterMap_eq_nil_iff.mp
  rw [filterMap_sentBy]
  apply List.filterMap_eq_nil_iff.mpr
  intro f hf
  refine if_neg fun hservice => hnone ⟨f, ?_, hservice⟩
  rw [htaken]
  exact List.mem_append_left _ hf

theorem offered_of_delivered (hpc : net.pc.ControlRoundTrip) (h : Flows net fits Carries x)
    {c : ConnectionId} (hfits : ∀ f ∈ (x.wires c).wrote, fits c f) {n : UInt16}
    (hn : n ∈ (x.wires c).delivered.filterMap acceptance) :
    n ∈ x.server.offered.filterMap (heard net.pc c acceptedSession) := by
  obtain ⟨front, pending, hwrote, hdelivered, -⟩ := (h.wires c).down hfits
  obtain ⟨msg, hmsg, hacceptance⟩ := List.mem_filterMap.mp hn
  rw [hdelivered] at hmsg
  obtain ⟨f, hf, harrived⟩ := List.mem_filterMap.mp hmsg
  have hheard : (arrived net.pc f).bind acceptance = some n := by
    rw [harrived]
    exact hacceptance
  have hmem : f ∈ (x.wires c).wrote ++ (x.wires c).channel := by
    rw [hwrote]
    exact List.mem_append_left _ (List.mem_append_left _ hf)
  rw [h.channels c] at hmem
  obtain hmem | hmem := List.mem_append.mp hmem
  · rw [acceptance_greeting hpc hmem] at hheard
    cases hheard
  · rw [acceptance_arrived] at hheard
    split at hheard
    · next hzero =>
      refine List.mem_filterMap.mpr ⟨_, mem_enqueued hmem, ?_⟩
      rw [heard, if_pos ⟨rfl, hzero⟩]
      exact hheard
    · cases hheard

theorem steady_past (h : Flows net fits Carries x) :
    ∃ known gone, Steady net.pc net.accepts known gone x.past := by
  obtain ⟨known, gone, hposted, -⟩ := h.posted
  obtain ⟨known', gone', hpast⟩ := hposted.initially (List.prefix_append _ _)
  exact ⟨known', gone', steady_of_posted hpast rfl⟩

theorem server_eq (h : Flows net fits Carries x) (hrefused : Unrefused x.server) :
    x.server = after net.pc net.accepts x.past := by
  rw [h.server] at hrefused ⊢
  exact actorLoop_of_unrefused hrefused

def Begun (net : Setting Q) (k : Endpoint) (x : System Q) : Prop :=
  (∃ f ∈ (x.wires k.1).taken, f.1 = k.2) → ∃ start, start <+: x.past ∧
    (∀ i ∈ start, sentBy k i.event = none) ∧ k ∈ (after net.pc net.accepts start).routingTable

theorem route_of_delivered (hpc : net.pc.ControlRoundTrip) (h : Flows net fits Carries x)
    (hrefused : Unrefused x.server) (hfits : ∀ f ∈ (x.wires k.1).wrote, fits k.1 f)
    (hn : k.2 ∈ (x.wires k.1).delivered.filterMap acceptance) :
    ∃ start, start <+: x.past ∧ k ∈ (after net.pc net.accepts start).routingTable := by
  obtain ⟨known, gone, hsteady⟩ := steady_past h
  have hoffered := offered_of_delivered hpc h hfits hn
  rw [server_eq h hrefused] at hoffered
  exact route_of_acceptance hpc hsteady.legal hoffered

theorem begun_step (hpc : net.pc.ControlRoundTrip) {y : System Q} {label : Label} (h : Flows net fits Carries x)
    (hrefused : Unrefused x.server)
    (hfits : ∀ f ∈ (x.wires k.1).taken ++ (x.wires k.1).wrote, fits k.1 f)
    (hok : courteous k x label = true) (hstep : x.step net label = some y) (hbegun : Begun net k x) :
    Begun net k y := by
  have hgrows := grows_step hstep
  rintro ⟨f, hf, hservice⟩
  by_cases hbefore : ∃ f ∈ (x.wires k.1).taken, f.1 = k.2
  · obtain ⟨start, hstart, hsilent, hroute⟩ := hbegun hbefore
    exact ⟨start, hstart.trans hgrows.past, hsilent, hroute⟩
  · -- the first frame of the session is taken in this step
    obtain hf | rfl := taken_step hstep hf
    · exact absurd ⟨f, hf, hservice⟩ hbefore
    have hn : k.2 ∈ (x.wires k.1).delivered.filterMap acceptance := by
      simp only [courteous, decide_eq_true_eq] at hok
      exact hok (Prod.ext rfl hservice)
    obtain ⟨start, hstart, hroute⟩ :=
      route_of_delivered hpc h hrefused (fun f hf => hfits f (List.mem_append_right _ hf)) hn
    have hsilent := silent_of_taken h (fun f hf => hfits f (List.mem_append_left _ hf)) hbefore
    exact ⟨start, hstart.trans hgrows.past, fun i hi => hsilent i (hstart.subset hi), hroute⟩

theorem begun_reached (hlink : ∀ c, Faithful (net.link c) (fits c) (Carries c))
    (hpc : net.pc.ControlRoundTrip) (hx : Reached net (fun x label => courteous k x label = true) x)
    (hrefused : Unrefused x.server)
    (hfits : ∀ f ∈ (x.wires k.1).taken ++ (x.wires k.1).wrote, fits k.1 f) : Begun net k x := by
  induction hx with
  | start hx =>
    cases hx
    rintro ⟨f, hf, -⟩
    cases hf
  | @step x y label hx hok hstep ih =>
    have hgrows := grows_step hstep
    have hrefused' : Unrefused x.server := fun a ha => hrefused a (hgrows.attempts.subset ha)
    have hfits' : ∀ f ∈ (x.wires k.1).taken ++ (x.wires k.1).wrote, fits k.1 f := by
      intro f hf
      apply hfits
      obtain hf | hf := List.mem_append.mp hf
      · exact List.mem_append_left _ ((hgrows.taken k.1).subset hf)
      · exact List.mem_append_right _ ((hgrows.wrote k.1).subset hf)
    exact begun_step hpc (flows_reached hlink hx) hrefused' hfits' hok hstep (ih hrefused' hfits')

end Sessions

section Delivery

variable {fits : ConnectionId → WriteMessage → Prop}
  {Carries : ConnectionId → Q → List WriteMessage → Prop} {x : System Q}

theorem delivered_initial (h : Flows net fits Carries x)
    (hrefused : Unrefused x.server) {k : Endpoint} (hk : k.2 ≠ 0)
    (hfits : ∀ f ∈ (x.wires k.1).wrote, fits k.1 f) :
    (x.wires k.1).delivered.filterMap (deliveredOn k.2) <+: deliveries x.server k := by
  obtain ⟨front, pending, hwrote, hdelivered, -⟩ := (h.wires k.1).down hfits
  have hfront : front <+: (x.wires k.1).wrote ++ (x.wires k.1).channel := by
    rw [hwrote, List.append_assoc]
    exact List.prefix_append _ _
  have hgreeting : (greeting net.pc (x.wires k.1).phase).filterMap (payloadOn k.2) = [] := by
    apply List.filterMap_eq_nil_iff.mpr
    intro f hf
    exact if_neg fun he => hk (he.symm.trans (service_of_greeting hf))
  have hpayloads := hfront.filterMap (payloadOn k.2)
  rw [h.channels k.1, List.filterMap_append, hgreeting, List.nil_append,
    payloadOn_enqueued hrefused] at hpayloads
  rw [hdelivered, List.filterMap_filterMap]
  simp only [deliveredOn_arrived hk]
  exact hpayloads

theorem delivered_of_faithful (hlink : ∀ c, Faithful (net.link c) (fits c) (Carries c))
    (hpc : net.pc.ControlRoundTrip) {k : Endpoint}
    (hx : Reached net (fun x label => courteous k x label = true) x)
    (hrefused : Unrefused x.server) {r : Route} {front : List Input} (hfront : front <+: x.past)
    (hr : (actorLoop net.pc net.accepts front).routingTable.lookup k = some r)
    (hfits : ∀ f ∈ (x.wires k.1).taken ++ (x.wires k.1).wrote, fits k.1 f)
    (hfar : ∀ f ∈ (x.wires (r.peer k.1).1).wrote, fits (r.peer k.1).1 f) :
    (x.wires (r.peer k.1).1).delivered.filterMap (deliveredOn (r.peer k.1).2) <+:
      (x.wires k.1).taken.filterMap (payloadOn k.2) := by
  have hflows := flows_reached hlink hx
  have hunrefused := hrefused
  rw [hflows.server] at hunrefused
  rw [actorLoop_of_unrefused (unrefused_initially hfront hunrefused)] at hr
  obtain ⟨known, gone, hsteady⟩ := steady_past hflows
  have hsound := sound_execs net.pc net.accepts sound_new
    (legal_initially (hfront.map _) hsteady.legal)
  have hback := (peer_peer hsound.symmetric hr).1
  have hzero := session_ne_zero (hsound.symmetric.positive _ r hback)
  have htaken : x.past.filterMap (fun i => sentBy k i.event) <+:
      (x.wires k.1).taken.filterMap (payloadOn k.2) := by
    obtain ⟨rest, htaken⟩ := taken_eq hflows (fun f hf => hfits f (List.mem_append_left _ hf))
    rw [htaken, filterMap_sentBy, List.filterMap_append]
    exact List.prefix_append _ _
  have hoffered : deliveries x.server (r.peer k.1) <+: x.past.filterMap (fun i => sentBy k i.event) := by
    rw [server_eq hflows hrefused]
    refine deliveries_initial hpc hsteady hfront hr fun ⟨i, hi, hne⟩ => ?_
    apply begun_reached hlink hpc hx hrefused hfits
    by_contra hnone
    exact hne (silent_of_taken hflows (fun f hf => hfits f (List.mem_append_left _ hf)) hnone i hi)
  exact (delivered_initial hflows hrefused hzero hfar).trans (hoffered.trans htaken)

end Delivery

/-- Panes that are connected by byte streams, with the limits they negotiated. -/
def overStreams (pc : Postcard) (accepts : Nat → Bool) (limit : ConnectionId → UInt32) :
    Setting Stream :=
  ⟨pc, accepts, fun c => byteStream (limit c)⟩

/-- Service frames are delivered in order. If a pane sends on a session only after
the session was accepted, if everything fits the limits of both ends and if no
channel refuses a frame, then what the other end of a route of the session has got
is a first part of what the pane's writer took, however the threads interleave. -/
theorem delivered_in_order (pc : Postcard) (hpc : pc.ControlRoundTrip) (accepts : Nat → Bool)
    (limit : ConnectionId → UInt32) (a b : ConnectionId) (s t : UInt16) (x : System Stream)
    (hx : Reached (overStreams pc accepts limit)
      (fun x label => courteous (a, s) x label = true) x)
    (hroute : ∃ front r, front <+: x.past ∧
      (actorLoop pc accepts front).routingTable.lookup (a, s) = some r ∧ r.peer a = (b, t))
    (hsender : ∀ f ∈ (x.wires a).taken ++ (x.wires a).wrote, Fits (limit a) f)
    (hreceiver : ∀ f ∈ (x.wires b).wrote, Fits (limit b) f) (hrefused : Unrefused x.server) :
    (x.wires b).delivered.filterMap (deliveredOn t) <+:
      (x.wires a).taken.filterMap (payloadOn s) := by
  obtain ⟨front, r, hfront, hr, hpeer⟩ := hroute
  have hlink : ∀ c, Faithful ((overStreams pc accepts limit).link c) Measured Underway :=
    fun c => faithful_byteStream (limit c)
  have hdelivered := delivered_of_faithful hlink hpc hx hrefused hfront hr
    (fun f hf => (hsender f hf).measured)
  dsimp only at hdelivered
  rw [hpeer] at hdelivered
  exact hdelivered fun f hf => (hreceiver f hf).measured

/-- A pane declares an interest, waits for the answer and sends two frames, of
which the first has reached its peer and the second is under way. -/
def exchange : List Label :=
  let provider : ConnectionId := ⟨1⟩
  let consumer : ConnectionId := ⟨2⟩
  let declare := controlMessage.encode (.declareInterest clipboard 1)
  [.wire provider .greet, .wire provider (.register ⟨[clipboard]⟩), .wire consumer .greet,
    .act .stored, .wire consumer (.register ⟨[]⟩), .wire consumer (.send (0, declare)),
    .wire consumer (.driftUp 7), .act .stored, .wire consumer (.driftUp 100),
    .wire consumer .serverRead, .act .stored, .wire consumer (.driftDown 100),
    .wire consumer .serverWrite, .wire consumer .paneRead, .wire consumer (.driftDown 100),
    .wire consumer .paneRead, .wire consumer (.send (1, [1, 2, 3])), .wire consumer (.driftUp 5),
    .wire provider (.driftDown 100), .wire provider .paneRead, .wire provider .serverWrite,
    .wire consumer (.driftUp 5), .wire consumer .serverRead, .wire consumer (.send (1, [4])),
    .act .stored, .wire provider (.driftDown 100), .wire provider .serverWrite,
    .wire provider .paneRead, .wire provider (.driftDown 100), .wire provider .paneRead]

def exchanging : Setting Stream := overStreams postcard (fun _ => true) (fun _ => 64)

def exchanged : System Stream :=
  (runs exchanging (courteous (⟨2⟩, 1)) exchange (System.new exchanging)).get (by decide +kernel)

theorem delivered_in_order_exchange :
    (exchanged.wires ⟨1⟩).delivered.filterMap (deliveredOn 1) = [[1, 2, 3]] ∧
    (exchanged.wires ⟨2⟩).taken.filterMap (payloadOn 1) = [[1, 2, 3], [4]] ∧
    (exchanged.wires ⟨1⟩).delivered.filterMap (deliveredOn 1) <+:
      (exchanged.wires ⟨2⟩).taken.filterMap (payloadOn 1) := by
  refine ⟨by decide +kernel, by decide +kernel, ?_⟩
  exact delivered_in_order postcard postcard_control (fun _ => true) (fun _ => 64) ⟨2⟩ ⟨1⟩ 1 1
    exchanged (reached_runs (reached_new _) (Option.some_get _).symm)
    ⟨exchanged.past, ⟨⟨2⟩, 1, ⟨1⟩, 1⟩, List.prefix_refl _, by decide +kernel, by decide +kernel⟩
    (by decide +kernel) (by decide +kernel) (by unfold Unrefused; decide +kernel)

end Pane.InOrderDelivery
