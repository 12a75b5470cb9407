import Pane.RouteRemoval
import Pane.PostcardFormat

namespace Pane.RouteTable

open Pane.HashTable Pane.Messages Pane.Routing Pane.Server Pane.ServerActor
open Pane.RouteSymmetry Pane.RouteRemoval Pane.PostcardFormat

variable (pc : Postcard) (accepts : Nat → Bool)

structure Sound (known : List ConnectionId) (s : RoutingState) : Prop where
  symmetric : Symmetric s
  within : Within known s

theorem sound_new : Sound [] Server.new.toRoutingState := ⟨symmetric_new, within_new⟩

theorem sound_reroutes {known known' : List ConnectionId} {s s' : RoutingState}
    (h : Sound known s) (hr : Reroutes known s known' s') : Sound known' s' := by
  obtain ⟨hs, hw⟩ := h
  cases hr with
  | keep => exact ⟨hs, hw⟩
  | connect conn provides hc =>
    exact ⟨symmetric_connect hs hw hc provides, within_connect hw provides⟩
  | declare conn service hc =>
    exact ⟨symmetric_declare hs conn service, within_declare hs hw hc service⟩
  | revoke conn sessionId =>
    exact ⟨symmetric_revoke hs conn sessionId, within_revoke hs hw conn sessionId⟩
  | remove order conn =>
    exact ⟨symmetric_removeConnection hs order conn, within_removeConnection hs hw order conn⟩

theorem sound_exec {known : List ConnectionId} {s : ServerState} {c : Call}
    (h : Sound known s.toRoutingState) (hc : c.Allowed known) :
    Sound (c.opens known) (exec pc accepts s c).toRoutingState :=
  sound_reroutes h (exec_reroutes pc accepts s c hc)

theorem sound_execs {known : List ConnectionId} {s : ServerState} {cs : List Call}
    (h : Sound known s.toRoutingState) (hcs : Legal known cs) :
    Sound (opened known cs) (execs pc accepts cs s).toRoutingState :=
  execs_induction pc accepts (P := fun known s => Sound known s.toRoutingState)
    (fun _ _ _ hs hc => sound_exec pc accepts hs hc) hcs h

theorem sound_actorStep {known : List ConnectionId} {s : ServerState} {input : Input}
    (h : Sound known s.toRoutingState)
    (hc : (Call.event input.order input.event).Allowed known) :
    Sound ((Call.event input.order input.event).opens known)
      (actorStep pc accepts s input).toRoutingState := by
  have hlegal := (legal_stepCalls pc accepts known s input []).mpr ⟨hc, trivial⟩
  rw [List.append_nil] at hlegal
  rw [actorStep_eq, ← opened_stepCalls pc accepts known s input]
  exact sound_execs pc accepts h hlegal

theorem sound_actorLoop {inputs : List Input} (h : Orderly [] inputs) :
    ∃ known, Sound known (actorLoop pc accepts inputs).toRoutingState := by
  rw [actorLoop_eq]
  exact ⟨_, sound_execs pc accepts sound_new (legal_runCalls pc accepts _ h)⟩

theorem lookup_nextSession {s : RoutingState} (hs : Symmetric s) {k : Endpoint} {r : Route}
    (hk : s.routingTable.lookup k = some r) :
    ∃ next, s.nextSession.lookup k.1 = some next ∧ k.2 < next := by
  have hn := hs.numbered k r hk
  cases h : s.nextSession.lookup k.1 with
  | some next => exact ⟨next, rfl, by simpa [RoutingState.nextOf, h] using hn⟩
  | none =>
    have h1 : k.2 < 1 := by simpa [RoutingState.nextOf, h] using hn
    exact absurd (UInt16.lt_of_le_of_lt (hs.positive k r hk) h1) (UInt16.lt_irrefl _)

theorem session_le {s : RoutingState} (hs : Symmetric s) {k : Endpoint} {r : Route}
    (hk : s.routingTable.lookup k = some r) : k.2 ≤ 0xFFFE := by
  have hn := hs.numbered k r hk
  have hlt := (s.nextOf k.1).toNat_lt
  rw [UInt16.lt_iff_toNat_lt] at hn
  rw [UInt16.le_iff_toNat_le]
  show k.2.toNat ≤ 0xFFFE
  omega

theorem lookup_declare {s : RoutingState} (hs : Symmetric s) {k : Endpoint} {r : Route}
    (hk : s.routingTable.lookup k = some r) (c : ConnectionId) (service : Uuid) :
    (s.handleDeclareInterest c service).2.routingTable.lookup k = some r := by
  obtain ⟨reason, he⟩ | ⟨-, he⟩ | ⟨p, -, -, -, ⟨-, he⟩ | ⟨-, he⟩⟩ :=
    RoutingState.handleDeclareInterest_cases c service s <;> rw [he]
  · exact hk
  · exact hk
  · exact hk
  · exact (lookup_link_iff hs c p k r).mpr (.inl hk)

/-- After any run, each entry of the routing table is one end of its route, the
other end carries the same route, and both sessions are below the counters of
their connections. -/
theorem routingTable_symmetric (inputs : List Input) (horderly : Orderly [] inputs)
    (k : Endpoint) (r : Route)
    (hk : (actorLoop pc accepts inputs).routingTable.lookup k = some r) :
    let s := actorLoop pc accepts inputs
    (k = r.consumer ∨ k = r.provider) ∧
    (s.routingTable.lookup r.consumer = some r ∧ s.routingTable.lookup r.provider = some r) ∧
    r.consumerConn ≠ r.providerConn ∧
    (1 ≤ r.consumerSession ∧ r.consumerSession ≤ 0xFFFE) ∧
    (1 ≤ r.providerSession ∧ r.providerSession ≤ 0xFFFE) ∧
    (∃ next, s.nextSession.lookup r.consumerConn = some next ∧ r.consumerSession < next) ∧
    (∃ next, s.nextSession.lookup r.providerConn = some next ∧ r.providerSession < next) ∧
    ∀ c service, (s.handleDeclareInterest c service).2.routingTable.lookup k = some r := by
  obtain ⟨known, hs, -⟩ := sound_actorLoop pc accepts horderly
  have hc := hs.consumer k r hk
  have hp := hs.provider k r hk
  exact ⟨hs.endpoint k r hk, ⟨hc, hp⟩, hs.distinct k r hk,
    ⟨hs.positive _ r hc, session_le hs hc⟩, ⟨hs.positive _ r hp, session_le hs hp⟩,
    lookup_nextSession hs hc, lookup_nextSession hs hp, lookup_declare hs hk⟩

def clipboard : Uuid := ⟨List.replicate 16 0xC1, rfl⟩

/-- Connection 1 provides a service that connection 2 then declares. -/
def handshake : List Input :=
  [⟨.newConnection ⟨1⟩ ⟨[clipboard]⟩, .stored⟩, ⟨.newConnection ⟨2⟩ ⟨[]⟩, .stored⟩,
    ⟨.frame ⟨2⟩ 0 (controlMessage.encode (.declareInterest clipboard 1)), .stored⟩]

theorem routingTable_symmetric_handshake :
    Orderly [] handshake ∧
    (actorLoop postcard (fun _ => true) handshake).routingTable.lookup (⟨1⟩, 1) =
      some ⟨⟨2⟩, 1, ⟨1⟩, 1⟩ ∧
    (actorLoop postcard (fun _ => true) handshake).routingTable.lookup (⟨2⟩, 1) =
      some ⟨⟨2⟩, 1, ⟨1⟩, 1⟩ := by
  have h : Orderly [] handshake := by simp [handshake, Orderly]
  have hk : (actorLoop postcard (fun _ => true) handshake).routingTable.lookup (⟨1⟩, 1) =
      some ⟨⟨2⟩, 1, ⟨1⟩, 1⟩ := by decide +kernel
  exact ⟨h, hk, (routingTable_symmetric postcard (fun _ => true) handshake h _ _ hk).2.1.1⟩

end Pane.RouteTable
