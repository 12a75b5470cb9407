import Pane.FrameLimits
import Pane.InOrderDelivery

namespace Pane.Provenance

open Pane.HashTable Pane.Messages Pane.Routing Pane.Server Pane.ServerActor Pane.RouteSymmetry
open Pane.RouteTable Pane.RoutePipes Pane.CoreRequest Pane.ConnectionSource Pane.Links
open Pane.SteadyRuns Pane.WireSystem Pane.WireHistory Pane.InOrderDelivery
open Pane.GhostConnections (within_exec)
open Pane.FrameLimits (mem_runCalls snd_mem_of_mem_history)

section Routes

variable {pc : Postcard} {accepts : Nat → Bool}

def declarer (pc : Postcard) : ServerEvent → Option ConnectionId
  | .frame conn service payload =>
    match if service = 0 then pc.controlFromBytes payload else none with
    | some (.declareInterest _ _) => some conn
    | _ => none
  | _ => none

def Vouched (pc : Postcard) (p : ServerState × Call) : Prop :=
  ∀ conn service version, controlOf pc p.2 = some (conn, .declareInterest service version) →
    conn ∈ p.1.writers

theorem declarer_eq_some {order : HashOrder} {event : ServerEvent} {conn : ConnectionId}
    {service : Uuid} {version : UInt32}
    (h : controlOf pc (.event order event) = some (conn, .declareInterest service version)) :
    declarer pc event = some conn := by
  obtain ⟨order, payload, hcall, hmsg⟩ := controlOf_eq_some h
  cases hcall
  simp [declarer, hmsg]

theorem within_execs {known : List ConnectionId} {s : ServerState} {cs : List Call}
    (hs : Sound known s.toRoutingState) (hw : Within s.writers.keys s.toRoutingState)
    (hcs : Legal known cs) (hvouched : ∀ p ∈ history pc accepts s cs, Vouched pc p) :
    Within (execs pc accepts cs s).writers.keys (execs pc accepts cs s).toRoutingState := by
  induction cs generalizing known s with
  | nil => exact hw
  | cons c cs ih =>
    have hfirst : Vouched pc (s, c) := hvouched _ List.mem_cons_self
    exact ih (sound_exec pc accepts hs hcs.1) (within_exec accepts hs hw hcs.1 hfirst) hcs.2
      (fun p hp => hvouched p (List.mem_cons_of_mem _ hp))

theorem route_constant {cs pre post : List Call} (hcs : Legal [] cs)
    (hvouched : ∀ p ∈ history pc accepts Server.new cs, Vouched pc p) (hpre : pre <+: cs)
    (hpost : post <+: cs) {k : Endpoint} {r r' : Route}
    (hr : (execs pc accepts pre Server.new).routingTable.lookup k = some r)
    (hr' : (execs pc accepts post Server.new).routingTable.lookup k = some r') : r = r' := by
  have hwriter : ∀ {ds : List Call} {r : Route}, ds <+: cs →
      (execs pc accepts ds Server.new).routingTable.lookup k = some r →
      k.1 ∈ (execs pc accepts ds Server.new).writers := by
    intro ds r hds hk
    obtain ⟨rest, rfl⟩ := hds
    refine AList.mem_keys.mpr ((within_execs sound_new within_new
      (legal_initially (List.prefix_append _ _) hcs) fun p hp => ?_).routes k r hk)
    apply hvouched
    rw [history_append]
    exact List.mem_append_left _ hp
  obtain h | h := List.prefix_or_prefix_of_prefix hpre hpost
  · exact (route_unique pc accepts hcs h (List.prefix_refl _) hpost hr hr' (hwriter hpost hr')).1.symm
  · exact (route_unique pc accepts hcs h (List.prefix_refl _) hpre hr' hr (hwriter hpre hr)).1

theorem sent_of_deliveries {cs : List Call} (hcs : Legal [] cs) {k : Endpoint} (hk : k.2 ≠ 0)
    {payload : Bytes} (h : payload ∈ deliveries (execs pc accepts cs Server.new) k) :
    ∃ pre r order, pre <+: cs ∧ (execs pc accepts pre Server.new).routingTable.lookup k = some r ∧
      .event order (.frame (r.peer k.1).1 (r.peer k.1).2 payload) ∈ cs := by
  have hnone : deliveries Server.new k = [] := rfl
  rw [deliveries_execs pc accepts sound_new hcs hk, hnone, List.nil_append] at h
  obtain ⟨p, hp, harriving⟩ := List.mem_filterMap.mp h
  obtain ⟨r, hr, hcarried⟩ := Option.bind_eq_some_iff.mp harriving
  obtain ⟨hsent, -⟩ := carried_eq_some hcarried
  obtain ⟨order, horder⟩ := sentIn_eq_some hsent
  obtain ⟨pre, hpre, hstate⟩ := mem_history pc accepts hp
  refine ⟨pre, r, order, hpre, hstate ▸ hr, ?_⟩
  rw [← horder]
  exact snd_mem_of_mem_history pc accepts hp

theorem vouched_stepCalls {s : ServerState} {input : Input}
    (h : ∀ conn, declarer pc input.event = some conn → conn ∈ s.writers) :
    ∀ p ∈ history pc accepts s (stepCalls pc accepts s input), Vouched pc p := by
  intro p hp conn service version hcontrol
  rw [stepCalls, history] at hp
  obtain rfl | hp := List.mem_cons.mp hp
  · exact h conn (declarer_eq_some hcontrol)
  · -- the other calls do not come from a frame
    have hmem := snd_mem_of_mem_history pc accepts hp
    split at hmem
    · cases hmem
    · obtain hdrain | hmem := List.mem_cons.mp hmem
      · rw [hdrain] at hcontrol
        cases hcontrol
      · obtain ⟨d, -, hd⟩ := List.mem_map.mp hmem
        rw [← hd] at hcontrol
        cases hcontrol

end Routes

section Wires

variable {Q : Type} {net : Setting Q} {fits : ConnectionId → WriteMessage → Prop}
  {Carries : ConnectionId → Q → List WriteMessage → Prop} {x : System Q}

def allCalls (net : Setting Q) (x : System Q) : List Call :=
  runCalls net.pc net.accepts Server.new x.past

theorem legal_allCalls (h : Flows net fits Carries x) : Legal [] (allCalls net x) := by
  obtain ⟨known, gone, hsteady⟩ := steady_past h
  exact legal_runCalls net.pc net.accepts Server.new (orderly_of_legal hsteady.legal)

theorem server_eq_execs (h : Flows net fits Carries x) :
    x.server = execs net.pc net.accepts (allCalls net x) Server.new :=
  h.server.trans (actorLoop_eq net.pc net.accepts x.past)

def vouches (net : Setting Q) (x : System Q) : Label → Bool
  | .act _ => (x.queue.head?.bind (declarer net.pc)).all fun c => decide (c ∈ x.server.writers)
  | .wire _ _ => true

theorem vouched_reached (hlink : ∀ c, Faithful (net.link c) (fits c) (Carries c))
    (hx : Reached net (fun x label => vouches net x label = true) x) :
    ∀ p ∈ history net.pc net.accepts Server.new (allCalls net x), Vouched net.pc p := by
  induction hx with
  | start hx =>
    cases hx
    exact fun p hp => nomatch hp
  | @step x y label hx hok hstep ih =>
    cases label with
    | wire conn action =>
      obtain ⟨⟨w, posted⟩, -, hy⟩ := Option.bind_eq_some_iff.mp hstep
      cases hy
      exact ih
    | act order =>
      rw [step_wires, System.step, System.act] at hstep
      split at hstep
      · cases hstep
      · next event queue hqueue =>
        cases hstep
        have hserver := (flows_reached hlink hx).server
        intro p hp
        rw [allCalls, runCalls_append, history_append, ← actorLoop_eq, runCalls, runCalls,
          List.append_nil] at hp
        obtain hp | hp := List.mem_append.mp hp
        · exact ih p hp
        · change p ∈ history _ _ (actorLoop _ _ x.past) (stepCalls _ _ (actorLoop _ _ x.past) _) at hp
          rw [← hserver] at hp
          refine vouched_stepCalls (fun conn hconn => ?_) p hp
          simp only [vouches, hqueue, List.head?_cons, Option.bind_some] at hok
          rw [hconn] at hok
          exact of_decide_eq_true hok

theorem of_arrived_service {pc : Postcard} {f : WriteMessage} {s : UInt16} {payload : Bytes}
    (h : arrived pc f = some (.service s payload)) : s ≠ 0 ∧ f = (s, payload) := by
  by_cases hzero : f.1 = 0
  · cases hmsg : pc.controlFromBytes f.2 <;> simp [arrived, classifyFrame, hzero, hmsg] at h
  · simp only [arrived, classifyFrame, if_neg hzero] at h
    cases h
    exact ⟨hzero, rfl⟩

theorem taken_of_delivered (h : Flows net fits Carries x)
    (hfits : ∀ c, ∀ f ∈ (x.wires c).taken ++ (x.wires c).wrote, fits c f) {k : Endpoint}
    {payload : Bytes} (hd : .service k.2 payload ∈ (x.wires k.1).delivered) :
    k.2 ≠ 0 ∧ ∃ pre r, pre <+: allCalls net x ∧
      (execs net.pc net.accepts pre Server.new).routingTable.lookup k = some r ∧
      ((r.peer k.1).2, payload) ∈ (x.wires (r.peer k.1).1).taken := by
  obtain ⟨front, pending, hwrote, hdelivered, -⟩ :=
    (h.wires k.1).down fun f hf => hfits k.1 f (List.mem_append_right _ hf)
  rw [hdelivered] at hd
  obtain ⟨f, hf, harrived⟩ := List.mem_filterMap.mp hd
  obtain ⟨hzero, rfl⟩ := of_arrived_service harrived
  refine ⟨hzero, ?_⟩
  -- the server has offered the frame
  have hmem : (k.2, payload) ∈ (x.wires k.1).wrote ++ (x.wires k.1).channel := by
    rw [hwrote]
    exact List.mem_append_left _ (List.mem_append_left _ hf)
  rw [h.channels k.1] at hmem
  have hoffered : payload ∈ deliveries x.server k := by
    obtain hmem | hmem := List.mem_append.mp hmem
    · exact absurd (service_of_greeting hmem) hzero
    · refine List.mem_map.mpr ⟨_, List.mem_filter.mpr ⟨mem_enqueued hmem, ?_⟩, rfl⟩
      simp
  rw [server_eq_execs h] at hoffered
  obtain ⟨pre, r, order, hpre, hr, hevent⟩ := sent_of_deliveries (legal_allCalls h) hzero hoffered
  refine ⟨pre, r, hpre, hr, ?_⟩
  obtain ⟨rest, htaken⟩ := taken_eq h fun f hf =>
    hfits (r.peer k.1).1 f (List.mem_append_left _ hf)
  rw [htaken]
  refine List.mem_append_left _ (List.mem_filterMap.mpr ⟨_, List.mem_map.mpr
    ⟨_, mem_runCalls net.pc net.accepts hevent, rfl⟩, ?_⟩)
  simp [frameOf]

end Wires

end Pane.Provenance
