import Pane.RouteTable

namespace Pane.Offers

open Pane.HashTable Pane.Messages Pane.Routing Pane.Server Pane.ServerFrame Pane.ServerActor
open Pane.RouteSymmetry Pane.RouteRemoval

variable (pc : Postcard) (accepts : Nat → Bool)

def controlNotices (order : HashOrder) (s : ServerState) (conn : ConnectionId) (payload : Bytes) :
    List (ConnectionId × ControlMessage) :=
  match pc.controlFromBytes payload with
  | some (.declareInterest service _) => declareNotices s.toRoutingState conn service
  | some (.revokeInterest sessionId) => revokeNotices s.toRoutingState conn sessionId
  | some (.watch target) => watchNotices order s conn target
  | _ => []

def disconnectNotices (order : HashOrder) (s : ServerState) (conn : ConnectionId) :
    List (ConnectionId × ControlMessage) :=
  watcherNotices order s conn ++ lostNotices (s.removeConnection order.routes conn).1

def notices (s : ServerState) : Call → List (ConnectionId × ControlMessage)
  | .event order (.frame conn service payload) =>
    if service = 0 then controlNotices pc order s conn payload else []
  | .event order (.disconnected conn) => disconnectNotices order s conn
  | .tearDown order conn => disconnectNotices order s conn
  | _ => []

def forwards (s : ServerState) : Call → List Outbound
  | .event _ (.frame conn service payload) =>
    if service = 0 then [] else forwarded s.toRoutingState conn service payload
  | _ => []

theorem tell_congr {s s' : RoutingState} {msgs : List (ConnectionId × ControlMessage)}
    (h : ∀ m ∈ msgs, m.1 ∈ s.writers ↔ m.1 ∈ s'.writers) : tell pc s msgs = tell pc s' msgs := by
  apply List.filterMap_congr
  intro m hm
  simp only [h m hm]

theorem tell_of_writers {s s' : RoutingState} (h : s.writers = s'.writers)
    (msgs : List (ConnectionId × ControlMessage)) : tell pc s msgs = tell pc s' msgs :=
  tell_congr pc (fun _ _ => by rw [h])

theorem writers_declare (s : RoutingState) (conn : ConnectionId) (service : Uuid) :
    (s.handleDeclareInterest conn service).2.writers = s.writers := by
  obtain ⟨_, he⟩ | ⟨-, he⟩ | ⟨p, -, -, -, ⟨-, he⟩ | ⟨-, he⟩⟩ :=
    RoutingState.handleDeclareInterest_cases conn service s <;>
    simp [he, RoutingState.link]

theorem writers_revoke (s : RoutingState) (conn : ConnectionId) (sessionId : UInt16) :
    (s.revoke conn sessionId).2.writers = s.writers := by
  unfold RoutingState.revoke
  split <;> rfl

theorem mem_writers_exec (s : ServerState) (c : Call) (d : ConnectionId) :
    d ∈ (exec pc accepts s c).writers ↔
      joining c = some d ∨ d ∈ s.writers ∧ leaving c ≠ some d := by
  have hremove : ∀ order conn, d ∈ (s.processDisconnect pc accepts order conn).writers ↔
      d ∈ s.writers ∧ some conn ≠ some d := by
    intro order conn
    rw [toRoutingState_processDisconnect]
    refine AList.mem_erase.trans ?_
    rw [and_comm, ne_comm, ne_eq, ne_eq, Option.some.injEq]
  cases c with
  | drain => simp [exec, joining, leaving]
  | tearDown order conn => simpa [exec, joining, leaving] using hremove order conn
  | event order event =>
    cases event with
    | disconnected conn => simpa [exec, processEvent, joining, leaving] using hremove order conn
    | newConnection conn hello =>
      refine (AList.mem_insert _).trans ?_
      show d = conn ∨ d ∈ s.writers ↔ _
      simp [joining, leaving, eq_comm]
    | frame conn service payload =>
      have hsame : (exec pc accepts s (.event order (.frame conn service payload))).writers =
          s.writers := by
        simp only [exec, processEvent, ServerState.processFrame, ServerState.processControl]
        split
        · split <;> simp [writers_declare, writers_revoke]
        · simp
      rw [hsame]
      simp [joining, leaving]

theorem offered_processControl (order : HashOrder) (s : ServerState) (conn : ConnectionId)
    (payload : Bytes) :
    (s.processControl pc accepts order conn payload).offered =
      s.offered ++ tell pc s.toRoutingState (controlNotices pc order s conn payload) := by
  cases h : pc.controlFromBytes payload with
  | none => simp [ServerState.processControl, controlNotices, h]
  | some msg =>
    cases msg with
    | declareInterest service version =>
      simp only [ServerState.processControl, controlNotices, h, offered_declareInterest]
      rw [tell_of_writers pc (writers_declare s.toRoutingState conn service)]
    | revokeInterest sessionId =>
      simp only [ServerState.processControl, controlNotices, h, offered_revokeInterest]
      rw [tell_of_writers pc (writers_revoke s.toRoutingState conn sessionId)]
    | watch target => simp only [ServerState.processControl, controlNotices, h, offered_watch]
    | _ => simp [ServerState.processControl, controlNotices, h]

theorem offered_disconnect {s : ServerState} (hs : Symmetric s.toRoutingState) (order : HashOrder)
    (conn : ConnectionId) :
    (s.processDisconnect pc accepts order conn).offered =
      s.offered ++ tell pc s.toRoutingState (disconnectNotices order s conn) := by
  rw [offered_processDisconnect, disconnectNotices, tell_append, List.append_assoc]
  congr 2
  apply tell_congr
  intro m hm
  obtain ⟨peer, hp, rfl⟩ := List.mem_map.mp hm
  -- a far end is on another connection, so its writer is still there
  have hne : peer.1 ≠ conn := by
    rw [(removeConnection_spec hs order.routes conn).1, mem_farEnds hs] at hp
    obtain ⟨r, hk, he⟩ := hp
    exact fun h => (peer_peer hs hk).2.2 (he.trans h.symm)
  show peer.1 ∈ s.writers.erase conn ↔ peer.1 ∈ s.writers
  rw [AList.mem_erase]
  exact and_iff_right hne

theorem offered_exec {s : ServerState} (hs : Symmetric s.toRoutingState) (c : Call) :
    (exec pc accepts s c).offered =
      s.offered ++ (tell pc s.toRoutingState (notices pc s c) ++ forwards s c) := by
  cases c with
  | drain => simp [exec, notices, forwards, ServerState.offered]
  | tearDown order conn => simpa [exec, notices, forwards] using offered_disconnect pc accepts hs order conn
  | event order event =>
    cases event with
    | newConnection conn hello =>
      simp [exec, processEvent, processNewConnection, notices, forwards, ServerState.offered]
    | disconnected conn =>
      simpa [exec, processEvent, notices, forwards] using offered_disconnect pc accepts hs order conn
    | frame conn service payload =>
      simp only [exec, processEvent, ServerState.processFrame, notices, forwards]
      split
      · simpa using offered_processControl pc accepts order s conn payload
      · simpa using offered_processService accepts s conn service payload

theorem service_of_mem_forwards {s : ServerState} (hs : Symmetric s.toRoutingState) {c : Call}
    {f : Outbound} (h : f ∈ forwards s c) : f.service ≠ 0 := by
  unfold forwards at h
  split at h
  · split at h
    · cases h
    · obtain ⟨route, hl, -, rfl⟩ := mem_forwarded h
      have hpos := hs.positive _ route (peer_peer hs hl).1
      intro h0
      exact absurd (h0 ▸ hpos) (by decide : ¬ (1 : UInt16) ≤ 0)
  · cases h

section Reading

variable {α : Type} (conn : ConnectionId) (read : ControlMessage → Option α)

def heard (f : Outbound) : Option α :=
  if f.conn = conn ∧ f.service = 0 then (pc.controlFromBytes f.payload).bind read else none

def meant (m : ConnectionId × ControlMessage) : Option α := if m.1 = conn then read m.2 else none

variable {pc}

theorem heard_tell (hpc : pc.ControlRoundTrip) (s : RoutingState)
    (msgs : List (ConnectionId × ControlMessage)) :
    (tell pc s msgs).filterMap (heard pc conn read) =
      if conn ∈ s.writers then msgs.filterMap (meant conn read) else [] := by
  induction msgs with
  | nil => simp
  | cons m ms ih =>
    obtain ⟨bytes, hto, hfrom⟩ := hpc m.2
    rw [← List.singleton_append, tell_append, List.filterMap_append, ih, List.filterMap_append]
    by_cases hm : m.1 = conn
    · by_cases hw : conn ∈ s.writers
      · cases h : read m.2 <;> simp [ServerFrame.tell, hm, hw, hto, heard, hfrom, meant, h]
      · simp [ServerFrame.tell, hm, hw]
    · by_cases hw : m.1 ∈ s.writers <;> simp [ServerFrame.tell, hm, hw, hto, heard, meant]

theorem heard_forwards {s : ServerState} (hs : Symmetric s.toRoutingState) (c : Call) :
    (forwards s c).filterMap (heard pc conn read) = [] := by
  apply List.filterMap_eq_nil_iff.mpr
  intro f hf
  rw [heard, if_neg (fun h => service_of_mem_forwards hs hf h.2)]

theorem heard_exec (hpc : pc.ControlRoundTrip) {s : ServerState}
    (hs : Symmetric s.toRoutingState) (c : Call) :
    (exec pc accepts s c).offered.filterMap (heard pc conn read) =
      s.offered.filterMap (heard pc conn read) ++
        if conn ∈ s.writers then (notices pc s c).filterMap (meant conn read) else [] := by
  rw [offered_exec pc accepts hs, List.filterMap_append, List.filterMap_append,
    heard_forwards conn read hs, List.append_nil, heard_tell conn read hpc]

end Reading

end Pane.Offers
