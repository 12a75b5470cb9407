import Mathlib.Data.List.Infix
import Pane.Provenance
import Pane.TraceAccounts

namespace Pane.ReplyMatching

open Pane.HashTable Pane.Messages Pane.Callbacks Pane.LooperState Pane.CoreRequest Pane.CoreRuns
open Pane.LooperPlan Pane.Routing Pane.Server Pane.RouteSymmetry Pane.RouteTable
open Pane.ConnectionSource Pane.Links Pane.Streams Pane.WireSystem Pane.WireHistory
open Pane.PaneNetwork Pane.TraceAccounts Pane.Provenance Pane.PostcardFormat
open Pane.ServerActor (execs legal_initially)
open Pane.SteadyRuns (session_ne_zero)

variable {Q : Type} {H : ConnectionId → Type} {world : World Q H} {x : Network Q H}

theorem honest_attained {ok : Network Q H → Turn → Prop} (hframes : world.pc.FrameRoundTrip)
    (h : Attained world ok x) (c : ConnectionId) :
    Honest (world.env c) (x.nodes c) (x.system.wires c) := by
  have hframes' : (world.env c).pc.FrameRoundTrip := (world.same c).symm ▸ hframes
  refine attained_node (P := Honest (world.env c)) (honest_new _ _ c) ?_ ?_ h
  · exact fun node w channel hnode => ⟨hnode.audited, hnode.frames, hnode.drawn⟩
  · exact fun _ hstep hnode => honest_moved hframes' (moved_step hstep) hnode

/-- The network has come to its state in a run without ghosts. -/
structure Clean (world : World Q H) (fits : ConnectionId → WriteMessage → Prop)
    (Carries : ConnectionId → Q → List WriteMessage → Prop) (x : Network Q H) : Prop where
  flows : Flows world.toSetting fits Carries x.system
  honest : ∀ c, Honest (world.env c) (x.nodes c) (x.system.wires c)
  fitting : ∀ c, ∀ f ∈ (x.system.wires c).taken ++ (x.system.wires c).wrote, fits c f
  vouched : ∀ p ∈ RoutePipes.history world.pc world.accepts Server.new
    (allCalls world.toSetting x.system), Vouched world.pc p

def Carried (world : World Q H) (x : Network Q H) (k : Endpoint) (r : Route) : Prop :=
  ∃ pre, pre <+: allCalls world.toSetting x.system ∧
    (execs world.pc world.accepts pre Server.new).routingTable.lookup k = some r

/-- What one pane has asked and another one has answered. The request of the pane
`c` went out on its session `s` and was handed to the pane `d` at the other end of
the route, where the port that was opened for it was answered with `v`. -/
structure Exchange (world : World Q H) (x : Network Q H) (c : ConnectionId) (s : UInt16)
    (t : Token) (inner : Bytes) (d : ConnectionId) (s' : UInt16) (port : PortId) (v : Bytes) :
    Prop where
  installed : ∀ n, .installed t n ∈ (x.nodes c).core.trace ↔ n = s
  sent : ∃ bytes, world.pc.frameToAllocvec (.request t inner) = some bytes ∧
    .sent s bytes ∈ (x.nodes c).core.trace
  route : ∃ r, Carried world x (c, s) r ∧ r.peer c = (d, s')
  opened : .portOpened port s' t inner ∈ (x.nodes d).core.trace
  answered : .portAnswered port v ∈ (x.nodes d).core.trace

section Matching

variable {fits : ConnectionId → WriteMessage → Prop}
  {Carries : ConnectionId → Q → List WriteMessage → Prop}

theorem symmetric_carried (h : Clean world fits Carries x) {pre : List ServerActor.Call}
    (hpre : pre <+: allCalls world.toSetting x.system) :
    Symmetric (execs world.pc world.accepts pre Server.new).toRoutingState :=
  (sound_execs world.pc world.accepts sound_new
    (legal_initially hpre (legal_allCalls h.flows))).symmetric

theorem Carried.peer (h : Clean world fits Carries x) {k : Endpoint} {r : Route}
    (hr : Carried world x k r) :
    Carried world x (r.peer k.1) r ∧ r.peer (r.peer k.1).1 = k ∧ (r.peer k.1).2 ≠ 0 := by
  obtain ⟨pre, hpre, hlookup⟩ := hr
  have hs := symmetric_carried h hpre
  obtain ⟨hback, hpeer, -⟩ := peer_peer hs hlookup
  exact ⟨⟨pre, hpre, hback⟩, hpeer, session_ne_zero (hs.positive _ r hback)⟩

theorem Carried.unique (h : Clean world fits Carries x) {k : Endpoint} {r r' : Route}
    (hr : Carried world x k r) (hr' : Carried world x k r') : r = r' := by
  obtain ⟨pre, hpre, hlookup⟩ := hr
  obtain ⟨post, hpost, hlookup'⟩ := hr'
  exact route_constant (legal_allCalls h.flows) h.vouched hpre hpost hlookup hlookup'

theorem sent_of_handed (h : Clean world fits Carries x) (hframes : world.pc.FrameRoundTrip)
    {k : Endpoint} {frame : ServiceFrame} (hplain : ∀ inner, frame ≠ .notification inner)
    (hhanded : Handed world.pc (x.nodes k.1).handled k.2 frame) :
    ∃ r bytes, Carried world x k r ∧ world.pc.frameToAllocvec frame = some bytes ∧
      .sent (r.peer k.1).2 bytes ∈ (x.nodes (r.peer k.1).1).core.trace ∧
      Due (x.nodes (r.peer k.1).1).core.trace (r.peer k.1).2 frame := by
  obtain ⟨payload, hmem, hframe⟩ := hhanded
  have hdelivered := (h.honest k.1).drawn _ (.inr hmem)
  obtain ⟨-, pre, r, hpre, hr, htaken⟩ := taken_of_delivered h.flows h.fitting hdelivered
  have hcarried : Carried world x k r := ⟨pre, hpre, hr⟩
  have hzero := (hcarried.peer h).2.2
  have hsent := sent_of_taken (h.honest (r.peer k.1).1) ((world.same _).symm ▸ hframes) htaken hzero
    ((world.same (r.peer k.1).1).symm ▸ hframe) hplain
  rw [world.same] at hsent
  exact ⟨r, payload, hcarried, hsent.2.1, hsent.1, hsent.2.2⟩

theorem exchange_of_called (h : Clean world fits Carries x) (hframes : world.pc.FrameRoundTrip)
    {c : ConnectionId} {t : Token} {v : Bytes}
    (hcalled : .called (.onReply t v) ∈ (x.nodes c).core.trace) :
    ∃ s inner d s' port, Exchange world x c s t inner d s' port v := by
  obtain ⟨s, hreply⟩ := (h.honest c).audited.events _ hcalled
  rw [world.same] at hreply
  obtain ⟨r, bytes, hcarried, -, -, port, inner, hopened, hanswered⟩ :=
    sent_of_handed (k := (c, s)) h hframes (fun _ => by nofun) hreply
  have hrequest := (h.honest (r.peer c).1).audited.events _ hopened
  rw [world.same] at hrequest
  obtain ⟨r', bytes', hcarried', hbytes, hsent, hinstalled⟩ :=
    sent_of_handed (k := r.peer c) h hframes (fun _ => by nofun) hrequest
  -- the route at the other end is the same one, so it leads back
  obtain ⟨hback, hpeer, -⟩ := hcarried.peer h
  obtain rfl := hcarried'.unique h hback
  rw [hpeer] at hsent hinstalled
  refine ⟨s, inner, (r'.peer c).1, (r'.peer c).2, port, fun n => ⟨fun hn => ?_, ?_⟩,
    ⟨bytes', hbytes, hsent⟩, ⟨r', hcarried, rfl⟩, hopened, hanswered⟩
  · exact (h.honest c).audited.once t n s hn hinstalled
  · rintro rfl
    exact hinstalled

theorem exchange_unique (h : Clean world fits Carries x) {c c' d : ConnectionId}
    {s s' n n' : UInt16} {t t' : Token} {inner inner' v v' : Bytes} {port : PortId}
    (he : Exchange world x c s t inner d n port v)
    (he' : Exchange world x c' s' t' inner' d n' port v') : c = c' ∧ s = s' ∧ t = t' := by
  obtain ⟨i, hi⟩ := List.mem_iff_getElem?.mp he.opened
  obtain ⟨j, hj⟩ := List.mem_iff_getElem?.mp he'.opened
  have hport := (h.honest d).audited.numbered i _ _ _ _ hi
  have hport' := (h.honest d).audited.numbered j _ _ _ _ hj
  rw [hport.trans hport'.symm, hj] at hi
  cases hi
  obtain ⟨r, hcarried, hpeer⟩ := he.route
  obtain ⟨r', hcarried', hpeer'⟩ := he'.route
  obtain ⟨hback, hthis, -⟩ := hcarried.peer h
  obtain ⟨hback', hthis', -⟩ := hcarried'.peer h
  rw [hpeer] at hback hthis
  rw [hpeer'] at hback' hthis'
  obtain rfl := hback.unique h hback'
  cases hthis.symm.trans hthis'
  exact ⟨rfl, rfl, rfl⟩

end Matching

/-- Interests are declared by connections that the server has not torn down. -/
def vouched (world : World Q H) (x : Network Q H) : Turn → Bool
  | .server order => vouches world.toSetting x.system (.act order)
  | .pane _ _ => true

/-- Replies match requests, as long as no interest is declared by a connection that
was torn down and the length of every frame can be told. A request that is resolved
by a reply was handed to the pane at the other end of its route, which has answered
it with the payload of the reply; and a port that was answered resolves the request
of one pane at most. -/
theorem replies_matched {world : World Stream H} {limit : ConnectionId → UInt32}
    (hlink : ∀ c, world.link c = byteStream (limit c)) (hframes : world.pc.FrameRoundTrip)
    {x : Network Stream H} (hx : Attained world (fun x turn => vouched world x turn = true) x)
    (hmeasured : ∀ c, ∀ f ∈ (x.system.wires c).taken ++ (x.system.wires c).wrote, Measured f) :
    (∀ c t v, .called (.onReply t v) ∈ (x.nodes c).core.trace →
      ∃ s inner d n port, Exchange world x c s t inner d n port v) ∧
    ∀ c s t inner c' s' t' inner' d n n' port v v', Exchange world x c s t inner d n port v →
      Exchange world x c' s' t' inner' d n' port v' → c = c' ∧ s = s' ∧ t = t' := by
  have hfaithful : ∀ c, Faithful (world.link c) Measured Underway := fun c => by
    rw [hlink c]
    exact faithful_byteStream (limit c)
  have hreached : Reached world.toSetting (fun x label => vouches world.toSetting x label = true)
      x.system := reached_system (fun _ _ _ => rfl) (fun _ _ hok => hok) hx
  have hclean : Clean world (fun _ => Measured) (fun _ => Underway) x :=
    ⟨flows_reached hfaithful hreached, honest_attained hframes hx, hmeasured,
      vouched_reached hfaithful hreached⟩
  refine ⟨fun c t v hcalled => exchange_of_called hclean hframes hcalled, ?_⟩
  intro c s t inner c' s' t' inner' d n n' port v v' he he'
  exact exchange_unique hclean he he'

def echoes (accepts : Nat → Bool) : World Stream (fun _ => Unit) where
  pc := postcard
  accepts := accepts
  link _ := byteStream 64
  env _ := { Env.idle postcard with
    serviceDispatch := ⟨∅, (∅ : Table _ _).insert 1 AnsweredRequests.echoing⟩ }
  start _ := ()
  same _ := rfl

def fetch (c : ConnectionId) : List Turn :=
  [.pane c (.wire .serverWrite), .pane c (.wire (.driftDown 100)), .pane c (.wire .paneRead)]

def submit (c : ConnectionId) : List Turn :=
  [.pane c (.take 0), .pane c (.wire (.driftUp 100)), .pane c (.wire .serverRead), .server .stored]

def join (c : ConnectionId) (provides : List Uuid) : List Turn :=
  [.pane c (.wire .greet), .pane c (.wire (.driftDown 100)), .pane c (.wire .paneRead),
    .pane c (.dispatch 0 .whole), .pane c (.wire (.register ⟨provides⟩)), .server .stored]

def declare (c : ConnectionId) (service : Uuid) : Turn :=
  .pane c (.post (0, controlMessage.encode (.declareInterest service 1)))

def ask (c : ConnectionId) (payload : Bytes) : List Turn :=
  .pane c (.act (.op (.syncRequest ⟨1, 9 :: payload⟩))) :: submit c

def roundTrip : List Turn :=
  join ⟨1⟩ [clipboard] ++ (join ⟨2⟩ [] ++ (declare ⟨2⟩ clipboard :: (submit ⟨2⟩ ++ (fetch ⟨1⟩ ++
    (fetch ⟨2⟩ ++ (ask ⟨2⟩ [7] ++ (fetch ⟨1⟩ ++ (.pane ⟨1⟩ (.dispatch 1 .whole) ::
    (submit ⟨1⟩ ++ (fetch ⟨2⟩ ++ [.pane ⟨2⟩ (.dispatch 1 .whole)]))))))))))

def calm : World Stream (fun _ => Unit) := echoes fun _ => true

def answered : Network Stream (fun _ => Unit) :=
  (plays calm (vouched calm) roundTrip (Network.new calm)).get (by decide +kernel)

theorem measured_plays {world : World Stream H} {ok : Network Stream H → Turn → Bool}
    {turns : List Turn} {y : Network Stream H}
    (h : plays world ok turns (Network.new world) = some y) (owners : List ConnectionId)
    (howners : ∀ turn ∈ turns, ∀ c ∈ turn.owner, c ∈ owners)
    (hfits : ∀ c ∈ owners, ∀ f ∈ (y.system.wires c).taken ++ (y.system.wires c).wrote,
      Fits 64 f) (c : ConnectionId) :
    ∀ f ∈ (y.system.wires c).taken ++ (y.system.wires c).wrote, Measured f := by
  by_cases hc : c ∈ owners
  · exact fun f hf => (hfits c hc f hf).measured
  · obtain ⟨-, channel, hwire⟩ :=
      still_plays h fun turn hturn howner => hc (howners turn hturn c howner)
    rw [hwire]
    exact fun f hf => nomatch hf

theorem replies_matched_answered :
    .called (.onReply 0 [7]) ∈ (answered.nodes ⟨2⟩).core.trace ∧
    ∃ s inner d n port, Exchange calm answered ⟨2⟩ s 0 inner d n port [7] := by
  have hplays : plays calm (vouched calm) roundTrip (Network.new calm) = some answered :=
    (Option.some_get _).symm
  have hlink : ∀ c, calm.link c = byteStream 64 := fun _ => rfl
  have hmeasured := measured_plays hplays [⟨1⟩, ⟨2⟩] (by decide +kernel) (by decide +kernel)
  have hcalled : .called (.onReply 0 [7]) ∈ (answered.nodes ⟨2⟩).core.trace := by decide +kernel
  exact ⟨hcalled, (replies_matched hlink postcard_frame (attained_plays (attained_new _) hplays) hmeasured).1
    ⟨2⟩ 0 [7] hcalled⟩

def congested : World Stream (fun _ => Unit) := echoes fun n => n ≠ 6

/-- Pane 1 asks pane 2, and pane 3 asks pane 1. Then pane 2 is torn down, for the
sake of a notification that its channel refuses, while it declares an interest in
what pane 3 provides. The server gives it the session of its old route, on which it
then answers the first request. -/
def haunting : List Turn :=
  let first : Uuid := ⟨List.replicate 16 0xD1, rfl⟩
  let second : Uuid := ⟨List.replicate 16 0xD2, rfl⟩
  join ⟨1⟩ [clipboard] ++ join ⟨2⟩ [first] ++ join ⟨3⟩ [second] ++
    declare ⟨1⟩ first :: submit ⟨1⟩ ++ fetch ⟨1⟩ ++ fetch ⟨2⟩ ++ ask ⟨1⟩ [7] ++ fetch ⟨2⟩ ++
    declare ⟨3⟩ clipboard :: submit ⟨3⟩ ++ fetch ⟨3⟩ ++ ask ⟨3⟩ [5] ++
    [declare ⟨2⟩ second, .pane ⟨2⟩ (.take 0), .pane ⟨2⟩ (.wire (.driftUp 100)),
      .pane ⟨1⟩ (.post (1, serviceFrame.encode (.notification [])))] ++ submit ⟨1⟩ ++
    [.pane ⟨2⟩ (.wire .serverRead), .server .stored, .pane ⟨2⟩ (.dispatch 1 .whole)] ++
    submit ⟨2⟩ ++ fetch ⟨3⟩ ++ fetch ⟨3⟩ ++ [.pane ⟨3⟩ (.dispatch 2 .whole)]

def haunted : Network Stream (fun _ => Unit) :=
  (plays congested (fun _ _ => true) haunting (Network.new congested)).get (by decide +kernel)

def isAnswer : Event → Bool
  | .portAnswered _ _ => true
  | _ => false

/-- The request of pane 3 is resolved with the answer to another one. -/
theorem reply_mismatched :
    Attained congested (fun _ _ => true = true) haunted ∧
    (∀ c, ∀ f ∈ (haunted.system.wires c).taken ++ (haunted.system.wires c).wrote, Measured f) ∧
    .called (.onReply 0 [7]) ∈ (haunted.nodes ⟨3⟩).core.trace ∧
    ¬ ∃ s inner d n port, Exchange congested haunted ⟨3⟩ s 0 inner d n port [7] := by
  have hplays : plays congested (fun _ _ => true) haunting (Network.new congested) = some haunted :=
    (Option.some_get _).symm
  have hmeasured := measured_plays hplays [⟨1⟩, ⟨2⟩, ⟨3⟩] (by decide +kernel) (by decide +kernel)
  refine ⟨attained_plays (attained_new _) hplays, hmeasured, by decide +kernel, ?_⟩
  rintro ⟨s, inner, d, n, port, he⟩
  obtain rfl := (he.installed 1).mp (by decide +kernel)
  -- the only route that its session ever had leads to pane 1, which has answered nothing
  have hroutes : ∀ pre ∈ (allCalls congested.toSetting haunted.system).inits,
      ∀ r ∈ ((execs postcard congested.accepts pre Server.new).routingTable.lookup (⟨3⟩, 1)).toList,
        (r.peer ⟨3⟩).1 = ⟨1⟩ := by decide +kernel
  have hsilent : ∀ e ∈ (haunted.nodes ⟨1⟩).core.trace, isAnswer e = false := by decide +kernel
  obtain ⟨r, ⟨pre, hpre, hr⟩, hpeer⟩ := he.route
  have hd := hroutes pre ((List.mem_inits _ _).mpr hpre) r (Option.mem_toList.mpr hr)
  rw [hpeer] at hd
  have hanswered := he.answered
  rw [show d = ⟨1⟩ from hd] at hanswered
  cases hsilent _ hanswered

end Pane.ReplyMatching
