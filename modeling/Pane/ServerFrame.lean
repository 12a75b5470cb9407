import Pane.Server

namespace Pane.ServerFrame

open Pane.HashTable Pane.Messages Pane.Routing Pane.Server Pane.Server.ServerState

variable (pc : Postcard) (accepts : Nat → Bool) (order : HashOrder)

def tell (s : RoutingState) (msgs : List (ConnectionId × ControlMessage)) : List Outbound :=
  msgs.filterMap (fun m =>
    if m.1 ∈ s.writers then (pc.controlToAllocvec m.2).map (fun bytes => ⟨m.1, 0, bytes⟩) else none)

@[simp] theorem tell_nil (s : RoutingState) : tell pc s [] = [] := rfl

theorem tell_append (s : RoutingState) (ms ns : List (ConnectionId × ControlMessage)) :
    tell pc s (ms ++ ns) = tell pc s ms ++ tell pc s ns := by
  simp [tell]

theorem service_of_mem_tell {s : RoutingState} {msgs : List (ConnectionId × ControlMessage)}
    {f : Outbound} (h : f ∈ tell pc s msgs) : f.service = 0 := by
  simp only [tell, List.mem_filterMap] at h
  obtain ⟨m, -, hm⟩ := h
  split at hm
  · obtain ⟨bytes, -, rfl⟩ := Option.map_eq_some_iff.mp hm
    rfl
  · cases hm

@[simp] theorem toRoutingState_tryEnqueue (s : ServerState) (conn : ConnectionId)
    (service : UInt16) (payload : Bytes) :
    (s.tryEnqueue accepts conn service payload).toRoutingState = s.toRoutingState := by
  unfold tryEnqueue
  split <;> rfl

theorem offered_tryEnqueue (s : ServerState) (conn : ConnectionId) (service : UInt16)
    (payload : Bytes) :
    (s.tryEnqueue accepts conn service payload).offered =
      s.offered ++ if conn ∈ s.writers then [⟨conn, service, payload⟩] else [] := by
  unfold tryEnqueue
  split <;> simp [offered]

@[simp] theorem toRoutingState_enqueueControl (s : ServerState) (conn : ConnectionId)
    (msg : ControlMessage) :
    (s.enqueueControl pc accepts conn msg).toRoutingState = s.toRoutingState := by
  unfold enqueueControl
  split <;> simp

theorem offered_enqueueControl (s : ServerState) (conn : ConnectionId) (msg : ControlMessage) :
    (s.enqueueControl pc accepts conn msg).offered =
      s.offered ++ tell pc s.toRoutingState [(conn, msg)] := by
  unfold enqueueControl tell
  cases h : pc.controlToAllocvec msg with
  | none => simp [h]
  | some bytes =>
    simp only [offered_tryEnqueue]
    split <;> simp_all

@[simp] theorem toRoutingState_notifyWatcher (connId : ConnectionId) (bytes : Bytes)
    (s : ServerState) (watcher : ConnectionId) :
    (notifyWatcher accepts connId bytes s watcher).toRoutingState = s.toRoutingState := by
  simp [notifyWatcher]

theorem toRoutingState_foldl_notifyWatcher (connId : ConnectionId) (bytes : Bytes)
    (watchers : List ConnectionId) (s : ServerState) :
    (watchers.foldl (notifyWatcher accepts connId bytes) s).toRoutingState = s.toRoutingState := by
  induction watchers generalizing s with
  | nil => rfl
  | cons w ws ih => rw [List.foldl_cons, ih, toRoutingState_notifyWatcher]

theorem offered_foldl_notifyWatcher (connId : ConnectionId) {msg : ControlMessage} {bytes : Bytes}
    (hmsg : pc.controlToAllocvec msg = some bytes) (watchers : List ConnectionId)
    (s : ServerState) :
    (watchers.foldl (notifyWatcher accepts connId bytes) s).offered =
      s.offered ++ tell pc s.toRoutingState (watchers.map (fun w => (w, msg))) := by
  induction watchers generalizing s with
  | nil => simp
  | cons w ws ih =>
    have hw : (notifyWatcher accepts connId bytes s w).offered =
        s.offered ++ tell pc s.toRoutingState [(w, msg)] := by
      have h := offered_enqueueControl pc accepts s w msg
      rw [enqueueControl, hmsg] at h
      exact h
    rw [List.foldl_cons, ih, hw, toRoutingState_notifyWatcher, List.append_assoc, ← tell_append,
      List.map_cons, List.singleton_append]

def watcherNotices (s : ServerState) (connId : ConnectionId) :
    List (ConnectionId × ControlMessage) :=
  match s.watchTable.lookup connId, s.connAddresses.lookup connId with
  | some watchers, some addr =>
    (order.conns.arrange watchers.keys).map (fun w => (w, .paneExited addr .disconnected))
  | _, _ => []

@[simp] theorem toRoutingState_notifyWatchers (s : ServerState) (connId : ConnectionId) :
    (s.notifyWatchers pc accepts order connId).toRoutingState = s.toRoutingState := by
  unfold notifyWatchers
  split
  · rfl
  · dsimp only
    split
    · rfl
    · split
      · rfl
      · rw [toRoutingState_foldl_notifyWatcher]

theorem offered_notifyWatchers (s : ServerState) (connId : ConnectionId) :
    (s.notifyWatchers pc accepts order connId).offered =
      s.offered ++ tell pc s.toRoutingState (watcherNotices order s connId) := by
  cases hw : s.watchTable.lookup connId with
  | none => simp [notifyWatchers, watcherNotices, hw]
  | some watchers =>
    cases ha : s.connAddresses.lookup connId with
    | none => simp [notifyWatchers, watcherNotices, hw, ha, offered]
    | some addr =>
      cases hb : pc.controlToAllocvec (.paneExited addr .disconnected) with
      | none => simp [notifyWatchers, watcherNotices, hw, ha, hb, offered, tell]
      | some bytes =>
        simp only [notifyWatchers, watcherNotices, hw, ha, hb]
        rw [offered_foldl_notifyWatcher pc accepts connId hb]
        rfl

@[simp] theorem toRoutingState_forgetWatches (s : ServerState) (connId : ConnectionId) :
    (s.forgetWatches order connId).toRoutingState = s.toRoutingState := by
  unfold forgetWatches
  split <;> rfl

@[simp] theorem offered_forgetWatches (s : ServerState) (connId : ConnectionId) :
    (s.forgetWatches order connId).offered = s.offered := by
  unfold forgetWatches
  split <;> rfl

def lostNotices (peers : List Endpoint) : List (ConnectionId × ControlMessage) :=
  peers.map (fun p => (p.1, .serviceTeardown p.2 .connectionLost))

theorem toRoutingState_foldl_notifyPeer (peers : List Endpoint) (s : ServerState) :
    (peers.foldl (notifyPeer pc accepts) s).toRoutingState = s.toRoutingState := by
  induction peers generalizing s with
  | nil => rfl
  | cons p ps ih => rw [List.foldl_cons, ih, notifyPeer, toRoutingState_enqueueControl]

theorem offered_foldl_notifyPeer (peers : List Endpoint) (s : ServerState) :
    (peers.foldl (notifyPeer pc accepts) s).offered =
      s.offered ++ tell pc s.toRoutingState (lostNotices peers) := by
  induction peers generalizing s with
  | nil => simp [lostNotices]
  | cons p ps ih =>
    rw [List.foldl_cons, ih, notifyPeer, offered_enqueueControl, toRoutingState_enqueueControl,
      List.append_assoc, ← tell_append]
    rfl

@[simp] theorem toRoutingState_processDisconnect (s : ServerState) (connId : ConnectionId) :
    (s.processDisconnect pc accepts order connId).toRoutingState =
      (s.removeConnection order.routes connId).2 := by
  simp [processDisconnect, toRoutingState_foldl_notifyPeer]

theorem offered_processDisconnect (s : ServerState) (connId : ConnectionId) :
    (s.processDisconnect pc accepts order connId).offered =
      s.offered ++ tell pc s.toRoutingState (watcherNotices order s connId) ++
        tell pc (s.removeConnection order.routes connId).2
          (lostNotices (s.removeConnection order.routes connId).1) := by
  have h := offered_notifyWatchers pc accepts order s connId
  rw [← offered_forgetWatches order _ connId] at h
  rw [processDisconnect, offered_foldl_notifyPeer, ← h]
  simp [offered]

def watchNotices (s : ServerState) (connId : ConnectionId) (target : Address) :
    List (ConnectionId × ControlMessage) :=
  match s.resolveConn order target with
  | some _ => []
  | none => [(connId, .paneExited target .disconnected)]

@[simp] theorem toRoutingState_watch (s : ServerState) (connId : ConnectionId) (target : Address) :
    (s.watch pc accepts order connId target).toRoutingState = s.toRoutingState := by
  unfold watch
  split <;> simp

theorem offered_watch (s : ServerState) (connId : ConnectionId) (target : Address) :
    (s.watch pc accepts order connId target).offered =
      s.offered ++ tell pc s.toRoutingState (watchNotices order s connId target) := by
  cases h : s.resolveConn order target with
  | none => simp only [watch, watchNotices, h, offered_enqueueControl]
  | some conn => simp [watch, watchNotices, h, offered]

@[simp] theorem toRoutingState_unwatch (s : ServerState) (connId : ConnectionId)
    (target : Address) :
    (s.unwatch order connId target).toRoutingState = s.toRoutingState := by
  unfold unwatch
  split <;> rfl

@[simp] theorem offered_unwatch (s : ServerState) (connId : ConnectionId) (target : Address) :
    (s.unwatch order connId target).offered = s.offered := by
  unfold unwatch
  split <;> rfl

def declareNotices (s : RoutingState) (connId : ConnectionId) (service : Uuid) :
    List (ConnectionId × ControlMessage) :=
  match (s.handleDeclareInterest connId service).1 with
  | .ok (accepted, providerConn, providerSession) =>
    [(connId, accepted), (providerConn, .interestAccepted service providerSession 1)]
  | .error reason => [(connId, .interestDeclined service reason)]

@[simp] theorem toRoutingState_declareInterest (s : ServerState) (connId : ConnectionId)
    (service : Uuid) :
    (s.declareInterest pc accepts connId service).toRoutingState =
      (s.handleDeclareInterest connId service).2 := by
  unfold declareInterest
  split <;> simp_all

theorem offered_declareInterest (s : ServerState) (connId : ConnectionId) (service : Uuid) :
    (s.declareInterest pc accepts connId service).offered =
      s.offered ++ tell pc (s.handleDeclareInterest connId service).2
        (declareNotices s.toRoutingState connId service) := by
  unfold declareInterest declareNotices
  split
  · next accepted p n routing h =>
    rw [offered_enqueueControl, offered_enqueueControl, h, List.append_assoc,
      toRoutingState_enqueueControl, ← tell_append]
    rfl
  · next reason routing h =>
    rw [offered_enqueueControl, h]
    rfl

def revokeNotices (s : RoutingState) (connId : ConnectionId) (sessionId : UInt16) :
    List (ConnectionId × ControlMessage) :=
  match s.routingTable.lookup (connId, sessionId) with
  | none => []
  | some route =>
    [((route.peer connId).1, .serviceTeardown (route.peer connId).2 .serviceRevoked),
      (connId, .serviceTeardown sessionId .serviceRevoked)]

@[simp] theorem toRoutingState_revokeInterest (s : ServerState) (connId : ConnectionId)
    (sessionId : UInt16) :
    (s.revokeInterest pc accepts connId sessionId).toRoutingState =
      (s.revoke connId sessionId).2 := by
  cases h : s.routingTable.lookup (connId, sessionId) with
  | none => simp [revokeInterest, RoutingState.revoke_none h]
  | some route => simp [revokeInterest, RoutingState.revoke_some h]

theorem offered_revokeInterest (s : ServerState) (connId : ConnectionId) (sessionId : UInt16) :
    (s.revokeInterest pc accepts connId sessionId).offered =
      s.offered ++ tell pc (s.revoke connId sessionId).2
        (revokeNotices s.toRoutingState connId sessionId) := by
  cases h : s.routingTable.lookup (connId, sessionId) with
  | none => simp [revokeInterest, revokeNotices, RoutingState.revoke_none h, h]
  | some route =>
    simp only [revokeInterest, revokeNotices, RoutingState.revoke_some h, h]
    rw [offered_enqueueControl, offered_enqueueControl, List.append_assoc,
      toRoutingState_enqueueControl, ← tell_append]
    rfl

def forwarded (s : RoutingState) (connId : ConnectionId) (service : UInt16) (payload : Bytes) :
    List Outbound :=
  match s.routingTable.lookup (connId, service) with
  | some route =>
    if (route.peer connId).1 ∈ s.writers then [⟨(route.peer connId).1, (route.peer connId).2, payload⟩]
    else []
  | none => []

theorem mem_forwarded {s : RoutingState} {connId : ConnectionId} {service : UInt16}
    {payload : Bytes} {f : Outbound} (h : f ∈ forwarded s connId service payload) :
    ∃ route, s.routingTable.lookup (connId, service) = some route ∧
      (route.peer connId).1 ∈ s.writers ∧
      f = ⟨(route.peer connId).1, (route.peer connId).2, payload⟩ := by
  unfold forwarded at h
  split at h
  · next route hl =>
    split at h
    · next hw => exact ⟨route, hl, hw, List.mem_singleton.mp h⟩
    · cases h
  · cases h

@[simp] theorem toRoutingState_processService (s : ServerState) (connId : ConnectionId)
    (service : UInt16) (payload : Bytes) :
    (s.processService accepts connId service payload).toRoutingState = s.toRoutingState := by
  unfold processService
  split <;> simp

theorem offered_processService (s : ServerState) (connId : ConnectionId) (service : UInt16)
    (payload : Bytes) :
    (s.processService accepts connId service payload).offered =
      s.offered ++ forwarded s.toRoutingState connId service payload := by
  unfold processService forwarded
  split <;> simp_all [offered_tryEnqueue]

end Pane.ServerFrame
