import Pane.ActorPanics
import Pane.Verdicts
import Pane.WireProgress

namespace Pane.AtRest

open Pane.HashTable Pane.Messages Pane.Routing Pane.Server Pane.ServerActor Pane.Framing
open Pane.RouteSymmetry Pane.RouteTable Pane.RoutePipes Pane.Offers Pane.Attempts Pane.Overflow
open Pane.GhostConnections Pane.SteadyRuns Pane.CoreRequest Pane.ConnectionSource Pane.Links
open Pane.Streams Pane.WireSystem Pane.WireHistory Pane.WireProgress Pane.InOrderDelivery
open Pane.Verdicts Pane.ActorPanics Pane.PostcardFormat

variable {pc : Postcard} {accepts : Nat → Bool} {limits : ConnectionId → UInt32}
  {x : System Stream} {c : ConnectionId}

/-- The actor and the threads of a connection have nothing left to do. -/
structure Resting (net : Setting Stream) (x : System Stream) (c : ConnectionId) : Prop where
  actor : ∀ order, x.step net (.act order) = none
  threads : ∀ action, Onward x (.wire c action) → x.step net (.wire c action) = none

section Rest

variable {net : Setting Stream}

theorem resting_of_isNone (hqueue : x.queue.isEmpty = true)
    (hup : (x.wires c).up.unsent = []) (hdown : (x.wires c).down.unsent = [])
    (hruns : ∀ action ∈ [Action.serverRead, .serverWrite, .paneRead],
      (action.run net c (x.wires c)).isNone = true) : Resting net x c := by
  refine ⟨fun order => ?_, fun action hon => ?_⟩
  · rw [System.step, System.act, List.isEmpty_iff.mp hqueue]
  · have hwaits : ∀ action ∈ [Action.serverRead, .serverWrite, .paneRead],
        x.step net (.wire c action) = none := by
      intro action haction
      rw [System.step, Option.isNone_iff_eq_none.mp (hruns action haction)]
      rfl
    cases action with
    | driftUp n => exact absurd hup hon.2
    | driftDown n => exact absurd hdown hon.2
    | serverRead => exact hwaits _ (by simp)
    | serverWrite => exact hwaits _ (by simp)
    | paneRead => exact hwaits _ (by simp)
    | _ => cases hon

theorem Resting.queue (h : Resting net x c) : x.queue = [] := by
  have hact := h.actor .stored
  cases hqueue : x.queue with
  | nil => rfl
  | cons event queue =>
    rw [System.step, System.act, hqueue] at hact
    cases hact

theorem Resting.run (h : Resting net x c) (action : Action) (hon : Onward x (.wire c action)) :
    action.run net c (x.wires c) = none := by
  cases hrun : action.run net c (x.wires c) with
  | none => rfl
  | some result =>
    have hstep := h.threads action hon
    rw [System.step, hrun] at hstep
    cases hstep

theorem Resting.unsent_up (h : Resting net x c) : (x.wires c).up.unsent = [] := by
  by_contra hunsent
  have hrun := h.run (.driftUp 1) ⟨Nat.one_ne_zero, hunsent⟩
  cases hrun

theorem Resting.unsent_down (h : Resting net x c) : (x.wires c).down.unsent = [] := by
  by_contra hunsent
  have hrun := h.run (.driftDown 1) ⟨Nat.one_ne_zero, hunsent⟩
  cases hrun

theorem Resting.receive_up (h : Resting net x c) (hphase : (x.wires c).phase = .joined) :
    (net.link c).receive (x.wires c).up = none := by
  cases hreceive : (net.link c).receive (x.wires c).up with
  | none => rfl
  | some result =>
    have hrun := h.run .serverRead trivial
    obtain ⟨frame, up⟩ := result
    cases frame <;> simp [Action.run, hphase, hreceive] at hrun

theorem Resting.receive_down (h : Resting net x c) (hhears : (x.wires c).deaf = false) :
    (net.link c).receive (x.wires c).down = none := by
  cases hreceive : (net.link c).receive (x.wires c).down with
  | none => rfl
  | some result =>
    have hrun := h.run .paneRead trivial
    simp [Action.run, hhears, hreceive] at hrun

end Rest

theorem pending_nil {limit : UInt32} {q : Stream} {frames : List WriteMessage}
    (h : Underway q frames) (hunsent : q.unsent = [])
    (hreceive : (byteStream limit).receive q = none) (hfits : ∀ f ∈ frames, Fits limit f) :
    frames = [] := by
  obtain ⟨hbytes, hservices⟩ := h
  cases frames with
  | nil => rfl
  | cons frame rest =>
    rw [hunsent, List.append_nil, List.flatMap_cons] at hbytes
    have hsize : 2 + frame.2.length ≤ (FrameCodec.newPermissive limit).maxMessageSize.toNat :=
      hfits frame List.mem_cons_self
    simp only [byteStream, hbytes] at hreceive
    rw [readFrameInner_frameBytes hsize, acceptBody_encoded,
      if_neg (hservices frame List.mem_cons_self).1] at hreceive
    cases hreceive

theorem faithful_overStreams (c : ConnectionId) :
    Faithful ((overStreams pc accepts limits).link c) Measured Underway :=
  faithful_byteStream (limits c)

section Conveyed

variable {ok : System Stream → Label → Prop}

theorem taken_at_rest (hx : Reached (overStreams pc accepts limits) ok x)
    (hrest : Resting (overStreams pc accepts limits) x c) (hphase : (x.wires c).phase = .joined)
    (hfits : ∀ f ∈ (x.wires c).taken, Fits (limits c) f) :
    (x.wires c).taken = framesOf c (x.past.map Input.event) := by
  have hflows := flows_reached faithful_overStreams hx
  obtain ⟨pending, htaken, hcarries⟩ := (hflows.wires c).up fun f hf => (hfits f hf).measured
  have hnone : pending = [] := by
    refine pending_nil (hcarries ?_) hrest.unsent_up (hrest.receive_up hphase) fun f hf => ?_
    · rw [hphase]
      exact Phase.noConfusion
    · apply hfits
      rw [htaken]
      exact List.mem_append_right _ hf
  rw [htaken, hnone, List.append_nil, System.events, hrest.queue, List.append_nil]

theorem bounded_reached (hx : Reached (overStreams pc accepts limits) ok x) :
    ∀ event ∈ System.events x, ActorPanics.Bounded event := by
  induction hx with
  | start hx =>
    cases hx
    exact List.forall_mem_nil _
  | @step x y label _ _ hstep ih =>
    cases label with
    | act order =>
      rw [step_wires, System.step, System.act] at hstep
      split at hstep
      · cases hstep
      · next event queue hqueue =>
        cases hstep
        simpa [System.events, hqueue] using ih
    | wire conn action =>
      obtain ⟨⟨w, posted⟩, hrun, hy⟩ := Option.bind_eq_some_iff.mp hstep
      cases hy
      have hposted : ∀ event ∈ posted, ActorPanics.Bounded event := by
        cases move_of_run hrun with
        | read frame up hphase hreceive =>
          rw [List.forall_mem_singleton]
          exact (fits_of_receive hreceive).measured
        | _ => simp [ActorPanics.Bounded]
      intro event hevent
      rw [System.events, ← List.append_assoc] at hevent
      obtain hevent | hevent := List.mem_append.mp hevent
      · exact ih event hevent
      · exact hposted event hevent

theorem service_of_channel (hbrief : Brief pc) (hx : Reached (overStreams pc accepts limits) ok x)
    {frame : WriteMessage} (hframe : frame ∈ (x.wires c).channel) : frame.1 ≠ 0xFFFF := by
  have hflows := flows_reached faithful_overStreams hx
  obtain ⟨known, gone, hsteady⟩ : ∃ known gone, Steady pc accepts known gone x.past :=
    steady_past hflows
  have hruns := runs_actorLoop accepts hbrief sound_new (orderly_of_legal hsteady.legal)
    fun i hi => bounded_reached hx _ (List.mem_append_left _ (List.mem_map_of_mem hi))
  have hchannel : frame ∈ greeting pc (x.wires c).phase ++ enqueued x.server.attempts c := by
    have hchannels := hflows.channels c
    rw [show (overStreams pc accepts limits).pc = pc from rfl] at hchannels
    rw [← hchannels]
    exact List.mem_append_right _ hframe
  obtain hgreeting | henqueued := List.mem_append.mp hchannel
  · rw [service_of_greeting hgreeting]
    decide
  · have hoffered := mem_enqueued henqueued
    rw [hflows.server] at hoffered
    exact ((hruns.2 _ hoffered).resolve_left List.not_mem_nil).1

theorem channel_at_rest (hbrief : Brief pc) (hx : Reached (overStreams pc accepts limits) ok x)
    (hrest : Resting (overStreams pc accepts limits) x c) (hphase : (x.wires c).phase = .joined) :
    (x.wires c).channel = [] := by
  cases hchannel : (x.wires c).channel with
  | nil => rfl
  | cons frame channel =>
    have hservice : frame.1 ≠ 0xFFFF := service_of_channel hbrief hx (by rw [hchannel]; simp)
    have hrun := hrest.run .serverWrite trivial
    simp [Action.run, hphase, hchannel, overStreams, byteStream, hrest.unsent_down,
      FrameCodec.writeFrame, hservice] at hrun

theorem delivered_at_rest (hbrief : Brief pc) (hx : Reached (overStreams pc accepts limits) ok x)
    (hrest : Resting (overStreams pc accepts limits) x c) (hphase : (x.wires c).phase = .joined)
    (hhears : (x.wires c).deaf = false) (hfits : ∀ f ∈ (x.wires c).wrote, Fits (limits c) f) :
    (x.wires c).delivered =
      (greeting pc .joined ++ enqueued x.server.attempts c).filterMap (arrived pc) := by
  have hflows := flows_reached faithful_overStreams hx
  obtain ⟨front, pending, hwrote, hdelivered, hcarries⟩ :=
    (hflows.wires c).down fun f hf => (hfits f hf).measured
  have hnone : pending = [] := by
    refine pending_nil (hcarries hhears) hrest.unsent_down (hrest.receive_down hhears) fun f hf => ?_
    apply hfits
    rw [hwrote]
    exact List.mem_append_right _ hf
  have hchannels := hflows.channels c
  rw [channel_at_rest hbrief hx hrest hphase, List.append_nil, hphase, hwrote, hnone,
    List.append_nil] at hchannels
  rw [hdelivered, hchannels]
  rfl

end Conveyed

/-- Every question is answered. Once the threads of a connection are at rest, its
pane has heard one answer to each of its declarations, in their order, unless the
server gave the connection up, the pane stopped reading or a frame did not fit. -/
theorem interests_answered_at_rest (pc : Postcard) (hpc : pc.ControlRoundTrip) (hbrief : Brief pc)
    (accepts : Nat → Bool) (limits : ConnectionId → UInt32) (c : ConnectionId)
    (services : List Uuid) (x : System Stream)
    (hx : Reached (overStreams pc accepts limits)
      (fun x label => unmixed (overStreams pc accepts limits) c services x label = true) x)
    (hwriter : c ∈ x.server.writers) (hphase : (x.wires c).phase = .joined)
    (hhears : (x.wires c).deaf = false)
    (hfits : ∀ f ∈ (x.wires c).taken ++ (x.wires c).wrote, Fits (limits c) f)
    (hrest : Resting (overStreams pc accepts limits) x c) :
    ((x.wires c).delivered.filterMap (outcome services)).map Prod.fst =
      ((x.wires c).taken.filterMap (declared pc)).filter (· ∈ services) := by
  have hflows := flows_reached faithful_overStreams hx
  obtain ⟨known, gone, hsteady⟩ : ∃ known gone, Steady pc accepts known gone x.past :=
    steady_past hflows
  obtain ⟨_, htold⟩ := told_run hpc sound_new (answered_new accepts) told_new
    (orderly_of_legal hsteady.legal) (apart_reached faithful_overStreams hx)
  have hserver : x.past.foldl (actorStep pc accepts) Server.new = x.server := hflows.server.symm
  have hcomplete := htold.complete
  rw [List.nil_append, hserver] at hcomplete
  have hdelivered := delivered_at_rest hbrief hx hrest hphase hhears
    fun f hf => hfits f (List.mem_append_right _ hf)
  have hheard : (x.wires c).delivered.filterMap (outcome services) =
      rulings pc accepts c services Server.new x.past := by
    rw [← hcomplete hwriter, hdelivered, List.filterMap_filterMap]
    show List.filterMap (hears pc services) _ = _
    rw [List.filterMap_append, hears_greeting hpc, List.nil_append]
  have htaken := taken_at_rest hx hrest hphase fun f hf => hfits f (List.mem_append_left _ hf)
  rw [hheard, map_fst_rulings, htaken, framesOf, List.filterMap_map, List.filterMap_filterMap]
  rfl

def conclusion : List Label :=
  [.wire ⟨2⟩ (.driftUp 100), .wire ⟨2⟩ .serverRead, .act .stored, .wire ⟨1⟩ .serverWrite,
    .wire ⟨1⟩ (.driftDown 100), .wire ⟨1⟩ .paneRead]

def answered : System Stream :=
  (runs exchanging (unmixed exchanging ⟨2⟩ [clipboard]) (exchange ++ conclusion)
    (System.new exchanging)).get (by decide +kernel)

theorem interests_answered_at_rest_exchange :
    ((answered.wires ⟨2⟩).delivered.filterMap (outcome [clipboard])).map Prod.fst = [clipboard] ∧
    ((answered.wires ⟨2⟩).delivered.filterMap (outcome [clipboard])).map Prod.fst =
      ((answered.wires ⟨2⟩).taken.filterMap (declared postcard)).filter (· ∈ [clipboard]) := by
  refine ⟨by decide +kernel, ?_⟩
  exact interests_answered_at_rest postcard postcard_control postcard_brief (fun _ => true)
    (fun _ => 64) ⟨2⟩ [clipboard] answered (reached_runs (reached_new _) (Option.some_get _).symm)
    (by decide +kernel) (by decide +kernel) (by decide +kernel) (by decide +kernel)
    (resting_of_isNone (by decide +kernel) (by decide +kernel) (by decide +kernel)
      (by decide +kernel))

theorem deliveries_complete (hpc : pc.ControlRoundTrip) {known gone : List ConnectionId}
    {inputs : List Input} (h : Steady pc accepts known gone inputs) {k : Endpoint} {r : Route}
    (hr : (after pc accepts inputs).routingTable.lookup k = some r)
    (hfirst : (∃ i ∈ inputs, sentBy k i.event ≠ none) → ∃ start, start <+: inputs ∧
      (∀ i ∈ start, sentBy k i.event = none) ∧ k ∈ (after pc accepts start).routingTable) :
    deliveries (after pc accepts inputs) (r.peer k.1) =
      inputs.filterMap (fun i => sentBy k i.event) := by
  have hmanned := h.manned hpc (List.prefix_refl (calls inputs))
  obtain ⟨hback, hpeer, -⟩ := peer_peer hmanned.sound.symmetric hr
  have hpositive : (r.peer k.1).2 ≠ 0 :=
    session_ne_zero (hmanned.sound.symmetric.positive _ r hback)
  rw [after, deliveries_eq_carried pc accepts h.legal (List.prefix_refl _) hpositive hback
    (hmanned.housed.routes _ r hback).1, ← filterMap_sentIn k inputs Server.new]
  apply List.filterMap_congr
  intro p hp
  cases hsent : sentIn k p with
  | none =>
    by_contra hcarried
    obtain ⟨payload, hpayload⟩ := Option.ne_none_iff_exists'.mp hcarried
    have hother := (carried_eq_some hpayload).1
    rw [hpeer, hsent] at hother
    cases hother
  | some payload =>
    obtain ⟨before, later, hsplit⟩ := List.append_of_mem hp
    obtain ⟨pre, post, hcs, hstate, -⟩ := history_split pc accepts hsplit
    have hne : sentIn k p ≠ none := by
      rw [hsent]
      exact Option.some_ne_none payload
    have hpre : pre <+: calls inputs := ⟨p.2 :: post, hcs.symm⟩
    have hmem : p.2 ∈ calls inputs := by
      rw [hcs]
      exact List.mem_append_right _ List.mem_cons_self
    obtain ⟨start, hstart, hsilent, hroute⟩ := hfirst (mem_calls_of_sentIn hne hmem)
    obtain ⟨r₀, hr₀⟩ := Option.isSome_iff_exists.mp (AList.lookup_isSome.mpr hroute)
    -- the route stood before the frame came and stands in the end, so it stood in between
    obtain ⟨rfl, hthen⟩ := route_unique pc accepts h.legal
      (calls_before hne hcs (hstart.map _) hsilent) hpre (List.prefix_refl _) hr₀ hr
      (hmanned.housed.routes k r hr).1
    have hmanned' := h.manned hpc hpre
    rw [← hstate] at hthen hmanned'
    exact carried_of_sentIn hmanned' hthen hsent

theorem joined_of_writer (hx : Flows (overStreams pc accepts limits) (fun _ => Measured)
      (fun _ => Underway) x) (hqueue : x.queue = []) (hrefused : Unrefused x.server)
    (hwriter : c ∈ x.server.writers) : (x.wires c).phase = .joined := by
  obtain ⟨known, gone, hposted, hphases⟩ := hx.posted
  rw [System.events, hqueue, List.append_nil] at hposted
  have hsteady : Steady pc accepts known gone x.past := steady_of_posted hposted rfl
  have hserver := server_eq hx hrefused
  rw [hserver] at hwriter
  obtain ⟨hknown, hgone⟩ := (hsteady.writers c).mp hwriter
  obtain hphase | hphase := (hphases c).1.mp hknown
  · exact hphase
  · exact absurd ((hphases c).2.mpr hphase) hgone

theorem filterMap_deliveredOn {server : ServerState} (hrefused : Unrefused server) {k : Endpoint}
    (hk : k.2 ≠ 0) (phase : Phase) :
    ((greeting pc phase ++ enqueued server.attempts k.1).filterMap (arrived pc)).filterMap
      (deliveredOn k.2) = deliveries server k := by
  have hgreeting : (greeting pc phase).filterMap (payloadOn k.2) = [] := by
    apply List.filterMap_eq_nil_iff.mpr
    intro f hf
    exact if_neg fun he => hk (he.symm.trans (service_of_greeting hf))
  rw [List.filterMap_filterMap]
  simp only [deliveredOn_arrived hk]
  rw [List.filterMap_append, hgreeting, List.nil_append, payloadOn_enqueued hrefused]

/-- Nothing is lost. Once the threads of both ends of a route are at rest, the one
end has got exactly what the other end sent, in order, if the receiver still reads,
the sender sends only on sessions that were accepted, no channel refuses a frame and
everything fits. -/
theorem nothing_lost_at_rest (pc : Postcard) (hpc : pc.ControlRoundTrip) (hbrief : Brief pc)
    (accepts : Nat → Bool) (limits : ConnectionId → UInt32) (a b : ConnectionId) (s t : UInt16)
    (x : System Stream) (r : Route)
    (hx : Reached (overStreams pc accepts limits)
      (fun x label => courteous (a, s) x label = true) x)
    (hroute : x.server.routingTable.lookup (a, s) = some r) (hpeer : r.peer a = (b, t))
    (hrefused : Unrefused x.server) (hhears : (x.wires b).deaf = false)
    (hsender : ∀ f ∈ (x.wires a).taken ++ (x.wires a).wrote, Fits (limits a) f)
    (hreceiver : ∀ f ∈ (x.wires b).wrote, Fits (limits b) f)
    (ha : Resting (overStreams pc accepts limits) x a)
    (hb : Resting (overStreams pc accepts limits) x b) :
    (x.wires b).delivered.filterMap (deliveredOn t) =
      (x.wires a).taken.filterMap (payloadOn s) := by
  have hflows := flows_reached faithful_overStreams hx
  obtain ⟨known, gone, hsteady⟩ : ∃ known gone, Steady pc accepts known gone x.past :=
    steady_past hflows
  have hserver : after pc accepts x.past = x.server := (server_eq hflows hrefused).symm
  have hr := hroute
  rw [← hserver] at hr
  have hmanned : Manned _ (after pc accepts x.past) :=
    hsteady.manned hpc (List.prefix_refl (calls x.past))
  have hback := (peer_peer hmanned.sound.symmetric hr).1
  have hzero := session_ne_zero (hmanned.sound.symmetric.positive _ r hback)
  have hwriter := (hmanned.housed.routes (a, s) r hr).1
  have hwriter' := (hmanned.housed.routes _ r hback).1
  have hbegun := begun_reached faithful_overStreams hpc hx hrefused
    fun f hf => (hsender f hf).measured
  have hoffered := deliveries_complete hpc hsteady hr (by
    rintro ⟨i, hi, hne⟩
    apply hbegun
    by_contra hnone
    refine hne (silent_of_taken hflows (fun f hf => ?_) hnone i hi)
    exact (hsender f (List.mem_append_left _ hf)).measured)
  rw [hpeer] at hback hzero hwriter' hoffered
  rw [hserver] at hwriter hwriter' hoffered
  rw [delivered_at_rest hbrief hx hb (joined_of_writer hflows hb.queue hrefused hwriter') hhears
    hreceiver, filterMap_deliveredOn hrefused hzero, hoffered,
    taken_at_rest hx ha (joined_of_writer hflows ha.queue hrefused hwriter) (fun f hf =>
      hsender f (List.mem_append_left _ hf)), filterMap_sentBy]

def concluded : System Stream :=
  (runs exchanging (courteous (⟨2⟩, 1)) (exchange ++ conclusion) (System.new exchanging)).get
    (by decide +kernel)

theorem nothing_lost_at_rest_exchange :
    (concluded.wires ⟨1⟩).delivered.filterMap (deliveredOn 1) = [[1, 2, 3], [4]] ∧
    (concluded.wires ⟨1⟩).delivered.filterMap (deliveredOn 1) =
      (concluded.wires ⟨2⟩).taken.filterMap (payloadOn 1) := by
  refine ⟨by decide +kernel, ?_⟩
  have hrest : ∀ c : ConnectionId, c = ⟨1⟩ ∨ c = ⟨2⟩ → Resting exchanging concluded c := by
    rintro c (rfl | rfl)
    · exact resting_of_isNone (by decide +kernel) (by decide +kernel) (by decide +kernel)
        (by decide +kernel)
    · exact resting_of_isNone (by decide +kernel) (by decide +kernel) (by decide +kernel)
        (by decide +kernel)
  exact nothing_lost_at_rest postcard postcard_control postcard_brief (fun _ => true)
    (fun _ => 64) ⟨2⟩ ⟨1⟩ 1 1 concluded ⟨⟨2⟩, 1, ⟨1⟩, 1⟩
    (reached_runs (reached_new _) (Option.some_get _).symm) (by decide +kernel) (by decide +kernel)
    (by unfold Unrefused; decide +kernel) (by decide +kernel) (by decide +kernel)
    (by decide +kernel) (hrest ⟨2⟩ (.inr rfl)) (hrest ⟨1⟩ (.inl rfl))

end Pane.AtRest
