import Pane.Routing

namespace Pane.Server

open Pane.HashTable Pane.Messages Pane.Routing

/-- A frame on its way to a connection. -/
structure Outbound where
  conn : ConnectionId
  service : UInt16
  payload : Bytes
deriving DecidableEq

/-- One call of `WriteHandle::enqueue` and the answer of the channel. -/
structure Attempt where
  frame : Outbound
  accepted : Bool
deriving DecidableEq

/-- State of the actor thread. The field `attempts` is not a field of the
source: it records what was offered to the writer channels, in order. -/
structure ServerState extends RoutingState where
  connAddresses : Table ConnectionId Address
  watchTable : Table ConnectionId (HashSet ConnectionId)
  watcherReverse : Table ConnectionId (HashSet ConnectionId)
  overflowTeardown : List ConnectionId
  attempts : List Attempt

def new : ServerState := ⟨⟨∅, ∅, ∅, ∅⟩, ∅, ∅, ∅, [], []⟩

/-- The iteration orders of the hash maps that one event walks over. -/
structure HashOrder where
  routes : Order Endpoint
  conns : Order ConnectionId
  addresses : Order (Σ _ : ConnectionId, Address)

def HashOrder.stored : HashOrder := ⟨.stored _, .stored _, .stored _⟩

variable (pc : Postcard) (accepts : Nat → Bool) (order : HashOrder)

namespace ServerState

def offered (s : ServerState) : List Outbound := s.attempts.map Attempt.frame

/-- Offer a frame to the channel of a connection. A refusal only marks the
connection for teardown; a connection without a writer is skipped. -/
def tryEnqueue (conn : ConnectionId) (service : UInt16) (payload : Bytes) (s : ServerState) :
    ServerState :=
  if conn ∈ s.writers then
    let ok := accepts s.attempts.length
    { s with
      overflowTeardown := if ok then s.overflowTeardown else s.overflowTeardown ++ [conn]
      attempts := s.attempts ++ [⟨⟨conn, service, payload⟩, ok⟩] }
  else s

/-- Serialize a control message and offer it on service 0. -/
def enqueueControl (conn : ConnectionId) (msg : ControlMessage) (s : ServerState) : ServerState :=
  match pc.controlToAllocvec msg with
  | some bytes => s.tryEnqueue accepts conn 0 bytes
  | none => s

def resolveConn (addr : Address) (s : ServerState) : Option ConnectionId :=
  ((order.addresses.arrange s.connAddresses.entries).find? (fun e => e.2 = addr)).map Sigma.fst

def dropMember (key member : ConnectionId) (m : Table ConnectionId (HashSet ConnectionId)) :
    Table ConnectionId (HashSet ConnectionId) :=
  match m.lookup key with
  | none => m
  | some set =>
    let rest := set.erase member
    if rest.keys = [] then m.erase key else m.insert key rest

def addMember (key member : ConnectionId) (m : Table ConnectionId (HashSet ConnectionId)) :
    Table ConnectionId (HashSet ConnectionId) :=
  m.insert key (((m.lookup key).getD ∅).insert member ())

def declareInterest (connId : ConnectionId) (service : Uuid) (s : ServerState) : ServerState :=
  match s.handleDeclareInterest connId service with
  | (.ok (accepted, providerConn, providerSession), routing) =>
    (({ s with toRoutingState := routing }.enqueueControl pc accepts connId accepted)).enqueueControl
      pc accepts providerConn (.interestAccepted service providerSession 1)
  | (.error reason, routing) =>
    { s with toRoutingState := routing }.enqueueControl pc accepts connId
      (.interestDeclined service reason)

/-- The far end hears of the revocation first, then the revoker itself. -/
def revokeInterest (connId : ConnectionId) (sessionId : UInt16) (s : ServerState) : ServerState :=
  match s.revoke connId sessionId with
  | (none, _) => s
  | (some route, routing) =>
    let peer := route.peer connId
    ({ s with toRoutingState := routing }.enqueueControl pc accepts peer.1
      (.serviceTeardown peer.2 .serviceRevoked)).enqueueControl
        pc accepts connId (.serviceTeardown sessionId .serviceRevoked)

def watch (connId : ConnectionId) (target : Address) (s : ServerState) : ServerState :=
  match s.resolveConn order target with
  | some targetConn =>
    { s with
      watchTable := addMember targetConn connId s.watchTable
      watcherReverse := addMember connId targetConn s.watcherReverse }
  | none => s.enqueueControl pc accepts connId (.paneExited target .disconnected)

def unwatch (connId : ConnectionId) (target : Address) (s : ServerState) : ServerState :=
  match s.resolveConn order target with
  | some targetConn =>
    { s with
      watchTable := dropMember targetConn connId s.watchTable
      watcherReverse := dropMember connId targetConn s.watcherReverse }
  | none => s

def processControl (connId : ConnectionId) (payload : Bytes) (s : ServerState) : ServerState :=
  match pc.controlFromBytes payload with
  | some (.declareInterest service _) => s.declareInterest pc accepts connId service
  | some (.revokeInterest sessionId) => s.revokeInterest pc accepts connId sessionId
  | some (.watch target) => s.watch pc accepts order connId target
  | some (.unwatch target) => s.unwatch order connId target
  | _ => s

def processService (connId : ConnectionId) (service : UInt16) (payload : Bytes)
    (s : ServerState) : ServerState :=
  match s.routingTable.lookup (connId, service) with
  | some route =>
    let target := route.peer connId
    s.tryEnqueue accepts target.1 target.2 payload
  | none => s

def processFrame (connId : ConnectionId) (service : UInt16) (payload : Bytes)
    (s : ServerState) : ServerState :=
  if service = 0 then s.processControl pc accepts order connId payload
  else s.processService accepts connId service payload

def notifyWatcher (connId : ConnectionId) (bytes : Bytes) (s : ServerState)
    (watcher : ConnectionId) : ServerState :=
  let s := s.tryEnqueue accepts watcher 0 bytes
  { s with watcherReverse := dropMember watcher connId s.watcherReverse }

/-- First part of `process_disconnect`: tell the watchers of the connection. -/
def notifyWatchers (connId : ConnectionId) (s : ServerState) : ServerState :=
  match s.watchTable.lookup connId with
  | none => s
  | some watchers =>
    let s := { s with watchTable := s.watchTable.erase connId }
    match s.connAddresses.lookup connId with
    | none => s
    | some addr => match pc.controlToAllocvec (.paneExited addr .disconnected) with
      | none => s
      | some bytes => (order.conns.arrange watchers.keys).foldl (notifyWatcher accepts connId bytes) s

/-- Second part: forget what the connection itself was watching. -/
def forgetWatches (connId : ConnectionId) (s : ServerState) : ServerState :=
  match s.watcherReverse.lookup connId with
  | none => s
  | some watched =>
    { s with
      watcherReverse := s.watcherReverse.erase connId
      watchTable := (order.conns.arrange watched.keys).foldl
        (fun table target => dropMember target connId table) s.watchTable }

/-- Last part: tell the far end of every route that was removed. -/
def notifyPeer (s : ServerState) (peer : Endpoint) : ServerState :=
  s.enqueueControl pc accepts peer.1 (.serviceTeardown peer.2 .connectionLost)

def processDisconnect (connId : ConnectionId) (s : ServerState) : ServerState :=
  let s := (s.notifyWatchers pc accepts order connId).forgetWatches order connId
  let s := { s with connAddresses := s.connAddresses.erase connId }
  let removed := s.removeConnection order.routes connId
  removed.1.foldl (notifyPeer pc accepts) { s with toRoutingState := removed.2 }

end ServerState

end Pane.Server
