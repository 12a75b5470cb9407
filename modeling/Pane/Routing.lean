import Pane.HashTable
import Pane.Messages

namespace Pane.Routing

open Pane.HashTable Pane.Messages

/-- A session on one connection bound to a session on another one. -/
structure Route where
  consumerConn : ConnectionId
  consumerSession : UInt16
  providerConn : ConnectionId
  providerSession : UInt16
deriving DecidableEq

abbrev Endpoint := ConnectionId × UInt16

namespace Route

def consumer (r : Route) : Endpoint := (r.consumerConn, r.consumerSession)

def provider (r : Route) : Endpoint := (r.providerConn, r.providerSession)

/-- The far end of the route, as every handler of the server computes it. -/
def peer (r : Route) (conn : ConnectionId) : Endpoint :=
  if r.consumerConn = conn then (r.providerConn, r.providerSession)
  else (r.consumerConn, r.consumerSession)

end Route

/-- The fields of the server state that decide where a frame goes. Of a write
handle only its presence is kept: what the channel behind it answers is an
input of every run. -/
structure RoutingState where
  providerIndex : Table Uuid (List ConnectionId)
  routingTable : Table Endpoint Route
  nextSession : Table ConnectionId UInt16
  writers : HashSet ConnectionId

namespace RoutingState

def nextOf (s : RoutingState) (conn : ConnectionId) : UInt16 :=
  (s.nextSession.lookup conn).getD 1

def allocSession (conn : ConnectionId) (s : RoutingState) : Option UInt16 × RoutingState :=
  let session := s.nextOf conn
  if session = 0xFFFF then (none, { s with nextSession := s.nextSession.insert conn session })
  else (some session, { s with nextSession := s.nextSession.insert conn (session + 1) })

def pushProvider (conn : ConnectionId) (index : Table Uuid (List ConnectionId)) (service : Uuid) :
    Table Uuid (List ConnectionId) :=
  index.insert service ((index.lookup service).getD [] ++ [conn])

def registerProvides (conn : ConnectionId) (provides : List Uuid) (s : RoutingState) :
    RoutingState :=
  { s with providerIndex := provides.foldl (pushProvider conn) s.providerIndex }

/-- A new connection: it may be written to, and its sessions count from 1. -/
def connect (conn : ConnectionId) (provides : List Uuid) (s : RoutingState) : RoutingState :=
  let s := s.registerProvides conn provides
  { s with
    writers := s.writers.insert conn ()
    nextSession := s.nextSession.insert conn 1 }

/-- Wire a consumer to the first provider of a service. -/
def handleDeclareInterest (consumerConn : ConnectionId) (service : Uuid) (s : RoutingState) :
    Except DeclineReason (ControlMessage × ConnectionId × UInt16) × RoutingState :=
  match (s.providerIndex.lookup service).bind List.head? with
  | none => (.error .serviceUnknown, s)
  | some providerConn =>
    if providerConn = consumerConn then (.error .selfProvide, s)
    else match s.allocSession consumerConn with
      | (none, s) => (.error .sessionExhausted, s)
      | (some consumerSession, s) => match s.allocSession providerConn with
        | (none, s) => (.error .sessionExhausted, s)
        | (some providerSession, s) =>
          let route := ⟨consumerConn, consumerSession, providerConn, providerSession⟩
          (.ok (.interestAccepted service consumerSession 1, providerConn, providerSession),
            { s with
              routingTable := (s.routingTable.insert (consumerConn, consumerSession) route).insert
                (providerConn, providerSession) route })

def removeRoute (conn : ConnectionId) (acc : Table Endpoint Route × List Endpoint)
    (key : Endpoint) : Table Endpoint Route × List Endpoint :=
  match acc.1.lookup key with
  | none => acc
  | some route => ((acc.1.erase key).erase (route.peer conn), acc.2 ++ [route.peer conn])

def affectedKeys (order : Order Endpoint) (conn : ConnectionId) (s : RoutingState) :
    List Endpoint :=
  (order.arrange s.routingTable.keys).filter (fun key => key.1 = conn)

def retainProviders (conn : ConnectionId) (index : Table Uuid (List ConnectionId))
    (service : Uuid) : Table Uuid (List ConnectionId) :=
  match index.lookup service with
  | none => index
  | some providers =>
    let kept := providers.filter (fun c => c ≠ conn)
    if kept = [] then index.erase service else index.insert service kept

/-- Remove all state of a connection and return the far ends of its routes. -/
def removeConnection (order : Order Endpoint) (conn : ConnectionId) (s : RoutingState) :
    List Endpoint × RoutingState :=
  let acc := (s.affectedKeys order conn).foldl (removeRoute conn) (s.routingTable, [])
  (acc.2, {
    providerIndex := s.providerIndex.keys.foldl (retainProviders conn) s.providerIndex
    routingTable := acc.1
    nextSession := s.nextSession.erase conn
    writers := s.writers.erase conn })

def revoke (connId : ConnectionId) (sessionId : UInt16) (s : RoutingState) :
    Option Route × RoutingState :=
  match s.routingTable.lookup (connId, sessionId) with
  | none => (none, s)
  | some route =>
    (some route, { s with
      routingTable := (s.routingTable.erase (connId, sessionId)).erase (route.peer connId) })

theorem nextOf_insert (s : RoutingState) (conn d : ConnectionId) (n : UInt16) :
    ({ s with nextSession := s.nextSession.insert conn n } : RoutingState).nextOf d =
      if d = conn then n else s.nextOf d := by
  simp only [nextOf, lookup_insert]
  split <;> rfl

def freshRoute (c p : ConnectionId) (s : RoutingState) : Route :=
  ⟨c, s.nextOf c, p, s.nextOf p⟩

def link (c p : ConnectionId) (s : RoutingState) : RoutingState :=
  { s with
    nextSession := (s.nextSession.insert c (s.nextOf c + 1)).insert p (s.nextOf p + 1)
    routingTable := (s.routingTable.insert (c, s.nextOf c) (s.freshRoute c p)).insert
      (p, s.nextOf p) (s.freshRoute c p) }

/-- The provider that the server would choose for a service. -/
def provider (service : Uuid) (s : RoutingState) : Option ConnectionId :=
  (s.providerIndex.lookup service).bind List.head?

theorem handleDeclareInterest_eq (c : ConnectionId) (service : Uuid) (s : RoutingState) :
    s.handleDeclareInterest c service = match s.provider service with
      | none => (.error .serviceUnknown, s)
      | some p =>
        if p = c then (.error .selfProvide, s)
        else if s.nextOf c = 0xFFFF then
          (.error .sessionExhausted, { s with nextSession := s.nextSession.insert c 0xFFFF })
        else if s.nextOf p = 0xFFFF then
          (.error .sessionExhausted,
            { s with nextSession := (s.nextSession.insert c (s.nextOf c + 1)).insert p 0xFFFF })
        else (.ok (.interestAccepted service (s.nextOf c) 1, p, s.nextOf p), s.link c p) := by
  cases hp : (s.providerIndex.lookup service).bind List.head? with
  | none => simp [handleDeclareInterest, provider, hp]
  | some p =>
    by_cases hpc : p = c
    · simp [handleDeclareInterest, provider, hp, hpc]
    by_cases hc : s.nextOf c = 0xFFFF
    · simp [handleDeclareInterest, provider, hp, hpc, allocSession, hc]
    have hnext : (⟨s.providerIndex, s.routingTable, s.nextSession.insert c (s.nextOf c + 1),
        s.writers⟩ : RoutingState).nextOf p = s.nextOf p := by
      simpa [hpc] using nextOf_insert s c p (s.nextOf c + 1)
    by_cases hn : s.nextOf p = 0xFFFF
    · simp [handleDeclareInterest, provider, hp, hpc, allocSession, hc, hnext, hn]
    · simp [handleDeclareInterest, provider, hp, hpc, allocSession, hc, hnext, hn, link, freshRoute]

theorem handleDeclareInterest_cases (c : ConnectionId) (service : Uuid) (s : RoutingState) :
    (∃ reason, s.handleDeclareInterest c service = (.error reason, s)) ∨
    (s.nextOf c = 0xFFFF ∧ s.handleDeclareInterest c service = (.error .sessionExhausted,
      { s with nextSession := s.nextSession.insert c 0xFFFF })) ∨
    ∃ p, (s.providerIndex.lookup service).bind List.head? = some p ∧ p ≠ c ∧ s.nextOf c ≠ 0xFFFF ∧
      ((s.nextOf p = 0xFFFF ∧ s.handleDeclareInterest c service = (.error .sessionExhausted,
          { s with nextSession := (s.nextSession.insert c (s.nextOf c + 1)).insert p 0xFFFF })) ∨
        (s.nextOf p ≠ 0xFFFF ∧ s.handleDeclareInterest c service =
          (.ok (.interestAccepted service (s.nextOf c) 1, p, s.nextOf p), s.link c p))) := by
  rw [handleDeclareInterest_eq]
  cases hp : s.provider service with
  | none => exact .inl ⟨_, rfl⟩
  | some p =>
    by_cases hpc : p = c
    · exact .inl ⟨_, if_pos hpc⟩
    by_cases hc : s.nextOf c = 0xFFFF
    · exact .inr (.inl ⟨hc, by simp [hpc, hc]⟩)
    refine .inr (.inr ⟨p, hp, hpc, hc, ?_⟩)
    by_cases hn : s.nextOf p = 0xFFFF
    · exact .inl ⟨hn, by simp [hpc, hc, hn]⟩
    · exact .inr ⟨hn, by simp [hpc, hc, hn]⟩

theorem revoke_some {s : RoutingState} {connId : ConnectionId} {sessionId : UInt16} {route : Route}
    (h : s.routingTable.lookup (connId, sessionId) = some route) :
    s.revoke connId sessionId = (some route, { s with
      routingTable := (s.routingTable.erase (connId, sessionId)).erase (route.peer connId) }) := by
  simp [revoke, h]

theorem revoke_none {s : RoutingState} {connId : ConnectionId} {sessionId : UInt16}
    (h : s.routingTable.lookup (connId, sessionId) = none) :
    s.revoke connId sessionId = (none, s) := by
  simp [revoke, h]

end RoutingState

end Pane.Routing
