import Pane.FrameLimits
import Pane.Unwinding

namespace Pane.ActorPanics

open Pane.HashTable Pane.Messages Pane.Routing Pane.Server Pane.ServerFrame
open Pane.RouteSymmetry Pane.RouteTable Pane.Framing Pane.FrameLimits Pane.Unwinding
open Pane.PostcardFormat Pane.Serialization

/-- A part of the actor, with the panics that it can have. What cannot panic is
taken from the model without panics. -/
abbrev Actor := Code ServerState

variable (pc : Postcard) (accepts : Nat → Bool) (order : HashOrder)

/-- There is no result where the assertion fails, or where the sum of the length field
overflows in a build that checks for it. The cast of the length itself truncates. -/
def encodeFrame (service : UInt16) (payload : Bytes) : Option Bytes :=
  if service = 0xFFFF then none
  else if 2 + payload.length % 2 ^ 32 < 2 ^ 32 then some (frameBytes service payload)
  else none

def tryEnqueue (conn : ConnectionId) (service : UInt16) (payload : Bytes) : Actor Unit := do
  if conn ∈ (← Code.gets fun s => s.writers) then
    match encodeFrame service payload with
    | none => Code.unwind
    | some _ => Code.modify fun s => s.tryEnqueue accepts conn service payload

def enqueueControl (conn : ConnectionId) (msg : ControlMessage) : Actor Unit :=
  match pc.controlToAllocvec msg with
  | some bytes => tryEnqueue accepts conn 0 bytes
  | none => pure ()

def increment (session : UInt16) : Option UInt16 :=
  if session.toNat + 1 < 2 ^ 16 then some (session + 1) else none

def allocSession (conn : ConnectionId) : Actor (Option UInt16) := do
  let session ← Code.gets fun s => s.nextOf conn
  Code.modify fun s => { s with nextSession := s.nextSession.insert conn session }
  if session = 0xFFFF then pure none
  else match increment session with
    | none => Code.unwind
    | some next => do
      Code.modify fun s => { s with nextSession := s.nextSession.insert conn next }
      pure (some session)

def handleDeclareInterest (consumerConn : ConnectionId) (service : Uuid) :
    Actor (Except DeclineReason (ControlMessage × ConnectionId × UInt16)) := do
  match ← Code.gets fun s => s.provider service with
  | none => pure (.error .serviceUnknown)
  | some providerConn =>
    if providerConn = consumerConn then pure (.error .selfProvide)
    else match ← allocSession consumerConn with
      | none => pure (.error .sessionExhausted)
      | some consumerSession => match ← allocSession providerConn with
        | none => pure (.error .sessionExhausted)
        | some providerSession => do
          let route := ⟨consumerConn, consumerSession, providerConn, providerSession⟩
          Code.modify fun s =>
            { s with
              routingTable := (s.routingTable.insert (consumerConn, consumerSession) route).insert
                (providerConn, providerSession) route }
          pure (.ok (.interestAccepted service consumerSession 1, providerConn, providerSession))

def declareInterest (connId : ConnectionId) (service : Uuid) : Actor Unit := do
  match ← handleDeclareInterest connId service with
  | .ok (accepted, providerConn, providerSession) => do
    enqueueControl pc accepts connId accepted
    enqueueControl pc accepts providerConn (.interestAccepted service providerSession 1)
  | .error reason => enqueueControl pc accepts connId (.interestDeclined service reason)

def revokeInterest (connId : ConnectionId) (sessionId : UInt16) : Actor Unit := do
  match ← Code.gets fun s => s.revoke connId sessionId with
  | (none, _) => pure ()
  | (some route, routing) => do
    Code.modify fun s => { s with toRoutingState := routing }
    enqueueControl pc accepts (route.peer connId).1
      (.serviceTeardown (route.peer connId).2 .serviceRevoked)
    enqueueControl pc accepts connId (.serviceTeardown sessionId .serviceRevoked)

def watch (connId : ConnectionId) (target : Address) : Actor Unit := do
  match ← Code.gets fun s => s.resolveConn order target with
  | some _ => Code.modify fun s => s.watch pc accepts order connId target
  | none => enqueueControl pc accepts connId (.paneExited target .disconnected)

def processControl (connId : ConnectionId) (payload : Bytes) : Actor Unit :=
  match pc.controlFromBytes payload with
  | some (.declareInterest service _) => declareInterest pc accepts connId service
  | some (.revokeInterest sessionId) => revokeInterest pc accepts connId sessionId
  | some (.watch target) => watch pc accepts order connId target
  | some (.unwatch target) => Code.modify fun s => s.unwatch order connId target
  | _ => pure ()

def processService (connId : ConnectionId) (service : UInt16) (payload : Bytes) : Actor Unit := do
  match ← Code.gets fun s => s.routingTable.lookup (connId, service) with
  | some route => tryEnqueue accepts (route.peer connId).1 (route.peer connId).2 payload
  | none => pure ()

def processFrame (connId : ConnectionId) (service : UInt16) (payload : Bytes) : Actor Unit :=
  if service = 0 then processControl pc accepts order connId payload
  else processService accepts connId service payload

def notifyWatcher (connId : ConnectionId) (bytes : Bytes) (watcher : ConnectionId) :
    Actor Unit := do
  tryEnqueue accepts watcher 0 bytes
  Code.modify fun s =>
    { s with watcherReverse := ServerState.dropMember watcher connId s.watcherReverse }

def notifyWatchers (connId : ConnectionId) : Actor Unit := do
  match ← Code.gets fun s => s.watchTable.lookup connId with
  | none => pure ()
  | some watchers => do
    Code.modify fun s => { s with watchTable := s.watchTable.erase connId }
    match ← Code.gets fun s => s.connAddresses.lookup connId with
    | none => pure ()
    | some addr => match pc.controlToAllocvec (.paneExited addr .disconnected) with
      | none => pure ()
      | some bytes =>
        Code.forEach (notifyWatcher accepts connId bytes) (order.conns.arrange watchers.keys)

def notifyPeer (peer : Endpoint) : Actor Unit :=
  enqueueControl pc accepts peer.1 (.serviceTeardown peer.2 .connectionLost)

def processDisconnect (connId : ConnectionId) : Actor Unit := do
  notifyWatchers pc accepts order connId
  Code.modify fun s => s.forgetWatches order connId
  Code.modify fun s => { s with connAddresses := s.connAddresses.erase connId }
  let removed ← Code.gets fun s => s.removeConnection order.routes connId
  Code.modify fun s => { s with toRoutingState := removed.2 }
  Code.forEach (notifyPeer pc accepts) removed.1

open ServerActor in
def processEvent : ServerEvent → Actor Unit
  | .newConnection conn hello => Code.modify (processNewConnection conn hello)
  | .frame conn service payload => processFrame pc accepts order conn service payload
  | .disconnected conn => processDisconnect pc accepts order conn

def tearDownOverflowed : List ConnectionId → List ConnectionId → Actor Unit
  | [], _ => pure ()
  | conn :: rest, seen =>
    if conn ∈ seen then tearDownOverflowed rest seen
    else do
      processDisconnect pc accepts order conn
      tearDownOverflowed rest (conn :: seen)

def actorStep (input : ServerActor.Input) : Actor Unit := do
  processEvent pc accepts input.order input.event
  let overflowed ← Code.gets fun s => s.overflowTeardown
  if overflowed = [] then pure ()
  else do
    Code.modify fun s => { s with overflowTeardown := [] }
    tearDownOverflowed pc accepts input.order overflowed []

def actorLoop (inputs : List ServerActor.Input) : Actor Unit :=
  Code.forEach (actorStep pc accepts) inputs

def Notice : ControlMessage → Prop
  | .interestAccepted _ _ _ => True
  | .interestDeclined _ _ => True
  | .serviceTeardown _ _ => True
  | .paneExited _ _ => True
  | _ => False

/-- These messages have fields of bounded size only, so that their encodings are short. -/
def Brief (pc : Postcard) : Prop :=
  ∀ m bytes, Notice m → pc.controlToAllocvec m = some bytes → 2 + bytes.length < 2 ^ 32

def Encodable (f : Outbound) : Prop := f.service ≠ 0xFFFF ∧ 2 + f.payload.length < 2 ^ 32

def Runs {α : Type} (m : Actor α) (s : ServerState) (a : α) (s' : ServerState) : Prop :=
  m s = (.done a, s') ∧ ∀ f ∈ s'.offered, f ∈ s.offered ∨ Encodable f

section Rules

variable {α β : Type} {m : Actor α} {f : α → Actor β} {s s' s'' : ServerState} {a : α} {b : β}

theorem Runs.refl : Runs (pure a) s a s := ⟨rfl, fun _ h => .inl h⟩

theorem Runs.gets (g : ServerState → α) : Runs (Code.gets g) s (g s) s := ⟨rfl, fun _ h => .inl h⟩

theorem Runs.modify {g : ServerState → ServerState} (h : (g s).offered = s.offered) :
    Runs (Code.modify g) s () (g s) := ⟨rfl, fun _ hf => .inl (h ▸ hf)⟩

theorem Runs.bind (h : Runs m s a s') (h' : Runs (f a) s' b s'') : Runs (m >>= f) s b s'' := by
  refine ⟨?_, fun g hg => ?_⟩
  · rw [Code.bind_apply, h.1]
    exact h'.1
  · obtain hg | hg := h'.2 g hg
    · exact h.2 g hg
    · exact .inr hg

theorem Runs.forEach {γ : Type} {body : γ → Actor Unit} {step : ServerState → γ → ServerState}
    {l : List γ} (h : ∀ c ∈ l, ∀ s, Runs (body c) s () (step s c)) (s : ServerState) :
    Runs (Code.forEach body l) s () (l.foldl step s) := by
  induction l generalizing s with
  | nil => exact Runs.refl
  | cons c l ih =>
    exact (h c List.mem_cons_self s).bind
      (ih (fun d hd => h d (List.mem_cons_of_mem _ hd)) (step s c))

end Rules

section Functions

variable {s : ServerState}

theorem encodeFrame_of_encodable {f : Outbound} (h : Encodable f) :
    encodeFrame f.service f.payload = some (frameBytes f.service f.payload) := by
  have hlength : f.payload.length % 2 ^ 32 = f.payload.length :=
    Nat.mod_eq_of_lt (by have := h.2; omega)
  rw [encodeFrame, if_neg h.1, hlength, if_pos h.2]

theorem runs_tryEnqueue {conn : ConnectionId} {service : UInt16} {payload : Bytes}
    (h : conn ∈ s.writers → Encodable ⟨conn, service, payload⟩) :
    Runs (tryEnqueue accepts conn service payload) s ()
      (s.tryEnqueue accepts conn service payload) := by
  refine (Runs.gets _).bind ?_
  by_cases hconn : conn ∈ s.writers
  · have hencode := encodeFrame_of_encodable (h hconn)
    dsimp only at hencode
    rw [if_pos hconn, hencode]
    refine ⟨rfl, fun f hf => ?_⟩
    obtain hf | hf := List.mem_append.mp (offered_tryEnqueue accepts s conn service payload ▸ hf)
    · exact .inl hf
    · rw [if_pos hconn] at hf
      rw [List.mem_singleton.mp hf]
      exact .inr (h hconn)
  · rw [if_neg hconn, ServerState.tryEnqueue, if_neg hconn]
    exact Runs.refl

variable {pc}

theorem runs_enqueueControl (hpc : Brief pc) {msg : ControlMessage} (hmsg : Notice msg)
    (conn : ConnectionId) :
    Runs (enqueueControl pc accepts conn msg) s () (s.enqueueControl pc accepts conn msg) := by
  unfold enqueueControl ServerState.enqueueControl
  cases hbytes : pc.controlToAllocvec msg with
  | none => exact Runs.refl
  | some bytes => exact runs_tryEnqueue accepts (fun _ => ⟨by simp, hpc msg bytes hmsg hbytes⟩)

theorem runs_allocSession (conn : ConnectionId) :
    Runs (allocSession conn) s (s.allocSession conn).1
      { s with toRoutingState := (s.allocSession conn).2 } := by
  refine (Runs.gets _).bind ((Runs.modify rfl).bind ?_)
  by_cases h : s.nextOf conn = 0xFFFF
  · rw [if_pos h, RoutingState.allocSession, if_pos h]
    exact Runs.refl
  · have hnext : increment (s.nextOf conn) = some (s.nextOf conn + 1) := by
      refine if_pos ?_
      have hlt := (s.nextOf conn).toNat_lt
      have hne : (s.nextOf conn).toNat ≠ 65535 := fun he => h (UInt16.toNat_inj.mp he)
      omega
    have hsame : (s.nextSession.insert conn (s.nextOf conn)).insert conn (s.nextOf conn + 1) =
        s.nextSession.insert conn (s.nextOf conn + 1) := AList.insert_insert _
    rw [if_neg h, hnext, RoutingState.allocSession, if_neg h, ← hsame]
    exact (Runs.modify rfl).bind Runs.refl

theorem runs_handleDeclareInterest (consumerConn : ConnectionId) (service : Uuid) :
    Runs (handleDeclareInterest consumerConn service) s
      (s.handleDeclareInterest consumerConn service).1
      { s with toRoutingState := (s.handleDeclareInterest consumerConn service).2 } := by
  refine (Runs.gets _).bind ?_
  unfold RoutingState.handleDeclareInterest
  cases hp : s.provider service with
  | none =>
    rw [RoutingState.provider] at hp
    rw [hp]
    exact Runs.refl
  | some p =>
    rw [RoutingState.provider] at hp
    rw [hp]
    dsimp only
    by_cases hself : p = consumerConn
    · rw [if_pos hself, if_pos hself]
      exact Runs.refl
    rw [if_neg hself, if_neg hself]
    refine (runs_allocSession consumerConn).bind ?_
    cases s.allocSession consumerConn with
    | mk first routing =>
      cases first with
      | none => exact Runs.refl
      | some consumerSession =>
        refine (runs_allocSession p).bind ?_
        dsimp only
        cases routing.allocSession p with
        | mk second routing =>
          cases second with
          | none => exact Runs.refl
          | some providerSession => exact (Runs.modify rfl).bind Runs.refl

theorem notice_of_accepted {s s' : RoutingState} {connId p : ConnectionId} {service : Uuid}
    {msg : ControlMessage} {n : UInt16}
    (h : s.handleDeclareInterest connId service = (.ok (msg, p, n), s')) : Notice msg := by
  obtain ⟨_, he⟩ | ⟨-, he⟩ | ⟨q, -, -, -, ⟨-, he⟩ | ⟨-, he⟩⟩ :=
    RoutingState.handleDeclareInterest_cases connId service s <;> rw [he] at h <;> cases h
  trivial

theorem runs_declareInterest (hpc : Brief pc) (connId : ConnectionId) (service : Uuid) :
    Runs (declareInterest pc accepts connId service) s ()
      (s.declareInterest pc accepts connId service) := by
  refine (runs_handleDeclareInterest connId service).bind ?_
  unfold ServerState.declareInterest
  cases h : s.handleDeclareInterest connId service with
  | mk answer routing =>
    cases answer with
    | ok accepted =>
      exact (runs_enqueueControl accepts hpc (notice_of_accepted h) connId).bind
        (runs_enqueueControl accepts hpc (by trivial) _)
    | error reason => exact runs_enqueueControl accepts hpc (by trivial) connId

theorem runs_revokeInterest (hpc : Brief pc) (connId : ConnectionId) (sessionId : UInt16) :
    Runs (revokeInterest pc accepts connId sessionId) s ()
      (s.revokeInterest pc accepts connId sessionId) := by
  refine (Runs.gets _).bind ?_
  unfold ServerState.revokeInterest
  cases s.revoke connId sessionId with
  | mk route routing =>
    cases route with
    | none => exact Runs.refl
    | some route =>
      refine (Runs.modify rfl).bind ?_
      exact (runs_enqueueControl accepts hpc (by trivial) _).bind
        (runs_enqueueControl accepts hpc (by trivial) connId)

theorem runs_watch (hpc : Brief pc) (connId : ConnectionId) (target : Address) :
    Runs (watch pc accepts order connId target) s () (s.watch pc accepts order connId target) := by
  refine (Runs.gets _).bind ?_
  cases h : s.resolveConn order target with
  | some targetConn =>
    refine Runs.modify ?_
    simp only [ServerState.watch, h]
    rfl
  | none =>
    simp only [ServerState.watch, h]
    exact runs_enqueueControl accepts hpc (by trivial) connId

theorem runs_processControl (hpc : Brief pc) (connId : ConnectionId) (payload : Bytes) :
    Runs (processControl pc accepts order connId payload) s ()
      (s.processControl pc accepts order connId payload) := by
  unfold processControl ServerState.processControl
  cases pc.controlFromBytes payload with
  | none => exact Runs.refl
  | some msg =>
    cases msg with
    | declareInterest service version => exact runs_declareInterest accepts hpc connId service
    | revokeInterest sessionId => exact runs_revokeInterest accepts hpc connId sessionId
    | watch target => exact runs_watch accepts order hpc connId target
    | unwatch target =>
      refine Runs.modify ?_
      unfold ServerState.unwatch
      split <;> rfl
    | _ => exact Runs.refl

theorem runs_processService (hs : Symmetric s.toRoutingState) {payload : Bytes}
    (hpayload : 2 + payload.length < 2 ^ 32) (connId : ConnectionId) (service : UInt16) :
    Runs (processService accepts connId service payload) s ()
      (s.processService accepts connId service payload) := by
  refine (Runs.gets _).bind ?_
  unfold ServerState.processService
  cases h : s.routingTable.lookup (connId, service) with
  | none => exact Runs.refl
  | some route =>
    refine runs_tryEnqueue accepts (fun _ => ⟨?_, hpayload⟩)
    have hle := session_le hs (peer_peer hs h).1
    rintro he
    rw [show (route.peer connId).2 = 0xFFFF from he] at hle
    exact absurd hle (by decide)

theorem runs_notifyWatchers (hpc : Brief pc) (connId : ConnectionId) :
    Runs (notifyWatchers pc accepts order connId) s ()
      (s.notifyWatchers pc accepts order connId) := by
  refine (Runs.gets _).bind ?_
  unfold ServerState.notifyWatchers
  cases s.watchTable.lookup connId with
  | none => exact Runs.refl
  | some watchers =>
    refine (Runs.modify rfl).bind ((Runs.gets _).bind ?_)
    dsimp only
    cases s.connAddresses.lookup connId with
    | none => exact Runs.refl
    | some addr =>
      dsimp only
      cases hbytes : pc.controlToAllocvec (.paneExited addr .disconnected) with
      | none => exact Runs.refl
      | some bytes =>
        refine Runs.forEach (fun watcher _ s => ?_) _
        refine (runs_tryEnqueue accepts (fun _ => ⟨by simp, hpc _ bytes (by trivial) hbytes⟩)).bind ?_
        exact Runs.modify rfl

theorem runs_processDisconnect (hpc : Brief pc) (connId : ConnectionId) :
    Runs (processDisconnect pc accepts order connId) s ()
      (s.processDisconnect pc accepts order connId) := by
  refine (runs_notifyWatchers accepts order hpc connId).bind ?_
  have hforget : ∀ s : ServerState, (s.forgetWatches order connId).offered = s.offered := by
    intro s
    unfold ServerState.forgetWatches
    split <;> rfl
  refine (Runs.modify (hforget _)).bind ((Runs.modify rfl).bind ((Runs.gets _).bind ?_))
  refine (Runs.modify rfl).bind ?_
  exact Runs.forEach (fun peer _ s => runs_enqueueControl accepts hpc (by trivial) peer.1) _

theorem runs_tearDownOverflowed (hpc : Brief pc) (conns seen : List ConnectionId)
    (s : ServerState) :
    Runs (tearDownOverflowed pc accepts order conns seen) s ()
      (ServerActor.tearDownOverflowed pc accepts order conns seen s) := by
  induction conns generalizing seen s with
  | nil => exact Runs.refl
  | cons conn rest ih =>
    unfold tearDownOverflowed ServerActor.tearDownOverflowed
    by_cases h : conn ∈ seen
    · rw [if_pos h, if_pos h]
      exact ih seen s
    · rw [if_neg h, if_neg h]
      exact (runs_processDisconnect accepts order hpc conn).bind (ih (conn :: seen) _)

end Functions

section Runs

open Pane.ServerActor (Input Orderly ServerEvent)

variable {pc} {known : List ConnectionId} {s : ServerState}

def Bounded : ServerEvent → Prop
  | .frame _ _ payload => 2 + payload.length < 2 ^ 32
  | _ => True

theorem runs_processEvent (hpc : Brief pc) (hs : Symmetric s.toRoutingState) {event : ServerEvent}
    (hevent : Bounded event) :
    Runs (processEvent pc accepts order event) s ()
      (ServerActor.processEvent pc accepts order s event) := by
  cases event with
  | newConnection conn hello => exact Runs.modify rfl
  | disconnected conn => exact runs_processDisconnect accepts order hpc conn
  | frame conn service payload =>
    simp only [processEvent, processFrame, ServerActor.processEvent, ServerState.processFrame]
    split
    · exact runs_processControl accepts order hpc conn payload
    · exact runs_processService accepts hs hevent conn service

theorem runs_actorStep (hpc : Brief pc) (hs : Symmetric s.toRoutingState) {input : Input}
    (hevent : Bounded input.event) :
    Runs (actorStep pc accepts input) s () (ServerActor.actorStep pc accepts s input) := by
  refine (runs_processEvent accepts input.order hpc hs hevent).bind ((Runs.gets _).bind ?_)
  unfold ServerActor.actorStep
  dsimp only
  split
  · exact Runs.refl
  · exact (Runs.modify rfl).bind (runs_tearDownOverflowed accepts input.order hpc _ [] _)

theorem runs_actorLoop (hpc : Brief pc) (hs : Sound known s.toRoutingState) {inputs : List Input}
    (horderly : Orderly known inputs) (hbounded : ∀ i ∈ inputs, Bounded i.event) :
    Runs (actorLoop pc accepts inputs) s () (inputs.foldl (ServerActor.actorStep pc accepts) s) := by
  induction inputs generalizing known s with
  | nil => exact Runs.refl
  | cons input inputs ih =>
    obtain ⟨hfirst, hrest⟩ := ServerActor.orderly_cons.mp horderly
    have hstep := runs_actorStep accepts hpc hs.symmetric (hbounded input List.mem_cons_self)
    exact hstep.bind (ih (sound_actorStep pc accepts hs hfirst) hrest
      (fun i hi => hbounded i (List.mem_cons_of_mem _ hi)))

theorem bounded_of_received {limit : Limits} {inputs : List Input} (h : Received limit inputs)
    (i : Input) (hi : i ∈ inputs) : Bounded i.event := by
  cases hevent : i.event with
  | frame conn service payload =>
    obtain ⟨bytes, rest, hread⟩ := h i hi conn service payload hevent
    exact Nat.lt_of_le_of_lt (readFrameInner_fits hread) (UInt32.toNat_lt _)
  | _ => trivial

variable (pc) in
/-- Whatever bytes the clients send, within whatever limits, the actor gets through
without a panic, and all that it encodes are frames that can be encoded. -/
theorem actor_never_panics (hpc : Brief pc) (limit : Limits) (inputs : List Input)
    (horderly : Orderly [] inputs) (hreceived : Received limit inputs) :
    actorLoop pc accepts inputs Server.new =
      (.done (), ServerActor.actorLoop pc accepts inputs) ∧
    ∀ f ∈ (ServerActor.actorLoop pc accepts inputs).offered,
      f.service ≠ 0xFFFF ∧ 2 + f.payload.length < 2 ^ 32 := by
  obtain ⟨hdone, hencoded⟩ :=
    runs_actorLoop accepts hpc sound_new horderly (bounded_of_received hreceived)
  exact ⟨hdone, fun f hf => (hencoded f hf).resolve_left List.not_mem_nil⟩

theorem postcard_brief : Brief postcard := by
  have h16 : ∀ n : UInt16, (uint16.encode n).length ≤ 3 :=
    fun n => length_encodeVarint _ (by have := n.toNat_lt; omega)
  have h32 : ∀ n : UInt32, (uint32.encode n).length ≤ 5 :=
    fun n => length_encodeVarint _ (by have := n.toNat_lt; omega)
  have h64 : ∀ n : UInt64, (uint64.encode n).length ≤ 10 :=
    fun n => length_encodeVarint _ (by have := n.toNat_lt; omega)
  have huuid : ∀ u : Uuid, (uuid.encode u).length ≤ 17 := by
    intro u
    show (encodeVarint u.1.length u.1.length ++ u.1).length ≤ 17
    rw [List.length_append, u.2]
    decide
  intro m bytes hm hbytes
  obtain rfl := Option.some.inj hbytes
  cases m with
  | interestAccepted u s v =>
    show 2 + (varint.encode 2 ++ (uuid.encode u ++ (uint16.encode s ++ uint32.encode v))).length < _
    have := huuid u
    have := h16 s
    have := h32 v
    have : (varint.encode 2).length = 1 := rfl
    simp only [List.length_append]
    omega
  | interestDeclined u r =>
    show 2 + (varint.encode 3 ++ (uuid.encode u ++ declineReason.encode r)).length < _
    have := huuid u
    have : (varint.encode 3).length = 1 := rfl
    have : (declineReason.encode r).length = 1 := by cases r <;> rfl
    simp only [List.length_append]
    omega
  | serviceTeardown s r =>
    show 2 + (varint.encode 4 ++ (uint16.encode s ++ teardownReason.encode r)).length < _
    have := h16 s
    have : (varint.encode 4).length = 1 := rfl
    have : (teardownReason.encode r).length = 1 := by cases r <;> rfl
    simp only [List.length_append]
    omega
  | paneExited a r =>
    show 2 + (varint.encode 9 ++ (uint64.encode a.paneId ++ uint64.encode a.serverId ++
      exitReason.encode r)).length < _
    have := h64 a.paneId
    have := h64 a.serverId
    have : (varint.encode 9).length = 1 := rfl
    have : (exitReason.encode r).length = 1 := by cases r <;> rfl
    simp only [List.length_append]
    omega
  | _ => cases hm

def arbitrary : List Input :=
  handshake ++ [⟨.frame ⟨1⟩ 1 [7], .stored⟩, ⟨.frame ⟨1⟩ 65534 [1, 2, 3], .stored⟩,
    ⟨.frame ⟨2⟩ 0 [255, 255], .stored⟩, ⟨.disconnected ⟨1⟩, .stored⟩]

theorem actor_never_panics_arbitrary :
    Orderly [] arbitrary ∧ Received (fun _ => 4096) arbitrary ∧
    actorLoop postcard (fun _ => true) arbitrary Server.new =
      (.done (), ServerActor.actorLoop postcard (fun _ => true) arbitrary) := by
  have horderly : Orderly [] arbitrary := by simp [arbitrary, handshake, Orderly]
  have hreceived : Received (fun _ => 4096) arbitrary := by
    apply received_of_sent
    intro input hinput conn service payload hevent
    simp only [arbitrary, handshake, List.cons_append, List.nil_append, List.mem_cons,
      List.not_mem_nil, or_false] at hinput
    obtain rfl | rfl | rfl | rfl | rfl | rfl | rfl := hinput <;> cases hevent <;> decide +kernel
  exact ⟨horderly, hreceived, (actor_never_panics postcard (fun _ => true) postcard_brief
    (fun _ => 4096) arbitrary horderly hreceived).1⟩

end Runs

end Pane.ActorPanics
