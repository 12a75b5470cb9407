import Pane.ServerFrame

namespace Pane.ServerActor

open Pane.HashTable Pane.Messages Pane.Routing Pane.Server

/-- What a client offers when it connects. -/
structure Hello where
  provides : List Uuid
deriving DecidableEq

/-- What reader threads and `accept` post to the actor. -/
inductive ServerEvent
  | newConnection (conn : ConnectionId) (hello : Hello)
  | frame (conn : ConnectionId) (service : UInt16) (payload : Bytes)
  | disconnected (conn : ConnectionId)
deriving DecidableEq

/-- An event together with the iteration orders it meets. -/
structure Input where
  event : ServerEvent
  order : HashOrder

variable (pc : Postcard) (accepts : Nat → Bool)

def processNewConnection (conn : ConnectionId) (hello : Hello) (s : ServerState) : ServerState :=
  { s with
    toRoutingState := s.connect conn hello.provides
    connAddresses := s.connAddresses.insert conn (Address.local conn.id) }

def processEvent (order : HashOrder) (s : ServerState) : ServerEvent → ServerState
  | .newConnection conn hello => processNewConnection conn hello s
  | .frame conn service payload => s.processFrame pc accepts order conn service payload
  | .disconnected conn => s.processDisconnect pc accepts order conn

/-- Tear down the connections that overflowed, each of them once. -/
def tearDownOverflowed (order : HashOrder) : List ConnectionId → List ConnectionId → ServerState →
    ServerState
  | [], _, s => s
  | conn :: rest, seen, s =>
    if conn ∈ seen then tearDownOverflowed order rest seen s
    else tearDownOverflowed order rest (conn :: seen) (s.processDisconnect pc accepts order conn)

/-- One iteration of `actor_loop`. The overflow list is taken once, before the
teardowns: what they add to it waits for the next iteration. -/
def actorStep (s : ServerState) (input : Input) : ServerState :=
  let s := processEvent pc accepts input.order s input.event
  if s.overflowTeardown = [] then s
  else tearDownOverflowed pc accepts input.order s.overflowTeardown []
    { s with overflowTeardown := [] }

def actorLoop (inputs : List Input) : ServerState :=
  inputs.foldl (actorStep pc accepts) Server.new

/-- Connection ids are not reused, and nothing is heard of a connection before
it was accepted. -/
def Orderly : List ConnectionId → List Input → Prop
  | _, [] => True
  | known, ⟨.newConnection conn _, _⟩ :: inputs => conn ∉ known ∧ Orderly (conn :: known) inputs
  | known, ⟨.frame conn _ _, _⟩ :: inputs => conn ∈ known ∧ Orderly known inputs
  | known, ⟨.disconnected conn, _⟩ :: inputs => conn ∈ known ∧ Orderly known inputs

/-- The updates of the state that an iteration of the actor is made of. -/
inductive Call
  | event (order : HashOrder) (event : ServerEvent)
  | drain
  | tearDown (order : HashOrder) (conn : ConnectionId)

def exec (s : ServerState) : Call → ServerState
  | .event order event => processEvent pc accepts order s event
  | .drain => { s with overflowTeardown := [] }
  | .tearDown order conn => s.processDisconnect pc accepts order conn

def execs (calls : List Call) (s : ServerState) : ServerState :=
  calls.foldl (exec pc accepts) s

@[simp] theorem execs_nil (s : ServerState) : execs pc accepts [] s = s := rfl

@[simp] theorem execs_cons (c : Call) (cs : List Call) (s : ServerState) :
    execs pc accepts (c :: cs) s = execs pc accepts cs (exec pc accepts s c) := rfl

theorem execs_append (cs ds : List Call) (s : ServerState) :
    execs pc accepts (cs ++ ds) s = execs pc accepts ds (execs pc accepts cs s) :=
  List.foldl_append ..

def firstOccurrences : List ConnectionId → List ConnectionId → List ConnectionId
  | [], _ => []
  | conn :: rest, seen =>
    if conn ∈ seen then firstOccurrences rest seen
    else conn :: firstOccurrences rest (conn :: seen)

theorem mem_firstOccurrences {l seen : List ConnectionId} {conn : ConnectionId}
    (h : conn ∈ l) (hseen : conn ∉ seen) :
    conn ∈ firstOccurrences l seen := by
  induction l generalizing seen with
  | nil => cases h
  | cons d l ih =>
    rw [firstOccurrences]
    by_cases hd : d ∈ seen
    · rw [if_pos hd]
      obtain rfl | h := List.mem_cons.mp h
      · exact absurd hd hseen
      · exact ih h hseen
    · rw [if_neg hd]
      by_cases hconn : conn = d
      · exact hconn ▸ List.mem_cons_self
      · refine List.mem_cons_of_mem _ (ih (List.mem_of_ne_of_mem hconn h) ?_)
        simp [hconn, hseen]

theorem tearDownOverflowed_eq (order : HashOrder) (conns seen : List ConnectionId)
    (s : ServerState) :
    tearDownOverflowed pc accepts order conns seen s =
      execs pc accepts ((firstOccurrences conns seen).map (.tearDown order)) s := by
  induction conns generalizing seen s with
  | nil => rfl
  | cons conn rest ih =>
    by_cases h : conn ∈ seen
    · simp [tearDownOverflowed, firstOccurrences, h, ih]
    · simp [tearDownOverflowed, firstOccurrences, h, ih, exec]

def stepCalls (s : ServerState) (input : Input) : List Call :=
  let overflowed := (processEvent pc accepts input.order s input.event).overflowTeardown
  .event input.order input.event :: if overflowed = [] then []
    else .drain :: (firstOccurrences overflowed []).map (.tearDown input.order)

theorem actorStep_eq (s : ServerState) (input : Input) :
    actorStep pc accepts s input = execs pc accepts (stepCalls pc accepts s input) s := by
  by_cases h : (processEvent pc accepts input.order s input.event).overflowTeardown = []
  · simp [actorStep, stepCalls, h, exec]
  · simp [actorStep, stepCalls, h, exec, tearDownOverflowed_eq]

def runCalls : ServerState → List Input → List Call
  | _, [] => []
  | s, input :: inputs =>
    stepCalls pc accepts s input ++ runCalls (actorStep pc accepts s input) inputs

theorem runCalls_append (inputs more : List Input) (s : ServerState) :
    runCalls pc accepts s (inputs ++ more) = runCalls pc accepts s inputs ++
      runCalls pc accepts (inputs.foldl (actorStep pc accepts) s) more := by
  induction inputs generalizing s with
  | nil => rfl
  | cons input inputs ih => rw [List.cons_append, runCalls, runCalls, ih, List.append_assoc,
      List.foldl_cons]

theorem foldl_actorStep (inputs : List Input) (s : ServerState) :
    inputs.foldl (actorStep pc accepts) s = execs pc accepts (runCalls pc accepts s inputs) s := by
  induction inputs generalizing s with
  | nil => rfl
  | cons input inputs ih => rw [List.foldl_cons, ih, runCalls, execs_append, ← actorStep_eq]

theorem actorLoop_eq (inputs : List Input) :
    actorLoop pc accepts inputs =
      execs pc accepts (runCalls pc accepts Server.new inputs) Server.new :=
  foldl_actorStep pc accepts inputs Server.new

def Call.opens (known : List ConnectionId) : Call → List ConnectionId
  | .event _ (.newConnection conn _) => conn :: known
  | _ => known

def Call.Allowed (known : List ConnectionId) : Call → Prop
  | .event _ (.newConnection conn _) => conn ∉ known
  | .event _ (.frame conn _ _) => conn ∈ known
  | .event _ (.disconnected conn) => conn ∈ known
  | _ => True

def Legal : List ConnectionId → List Call → Prop
  | _, [] => True
  | known, c :: cs => c.Allowed known ∧ Legal (c.opens known) cs

theorem legal_tearDowns (known : List ConnectionId) (order : HashOrder)
    (conns : List ConnectionId) (cs : List Call) :
    Legal known (conns.map (.tearDown order) ++ cs) ↔ Legal known cs := by
  induction conns with
  | nil => rfl
  | cons conn rest ih => simpa [Legal, Call.Allowed, Call.opens] using ih

theorem legal_stepCalls (known : List ConnectionId) (s : ServerState) (input : Input)
    (cs : List Call) :
    Legal known (stepCalls pc accepts s input ++ cs) ↔
      (Call.event input.order input.event).Allowed known ∧
        Legal ((Call.event input.order input.event).opens known) cs := by
  by_cases h : (processEvent pc accepts input.order s input.event).overflowTeardown = []
  · simp [stepCalls, h, Legal]
  · simp [stepCalls, h, Legal, Call.Allowed, Call.opens, legal_tearDowns]

theorem orderly_cons {known : List ConnectionId} {input : Input} {inputs : List Input} :
    Orderly known (input :: inputs) ↔ (Call.event input.order input.event).Allowed known ∧
      Orderly ((Call.event input.order input.event).opens known) inputs := by
  obtain ⟨event, order⟩ := input
  cases event <;> exact Iff.rfl

theorem legal_runCalls {known : List ConnectionId} {inputs : List Input} (s : ServerState)
    (h : Orderly known inputs) : Legal known (runCalls pc accepts s inputs) := by
  induction inputs generalizing known s with
  | nil => trivial
  | cons input inputs ih =>
    obtain ⟨hfirst, hrest⟩ := orderly_cons.mp h
    rw [runCalls, legal_stepCalls]
    exact ⟨hfirst, ih _ hrest⟩

/-- The connections that were accepted once some calls are done. -/
def opened (known : List ConnectionId) (cs : List Call) : List ConnectionId :=
  cs.foldl Call.opens known

theorem opened_stepCalls (known : List ConnectionId) (s : ServerState) (input : Input) :
    opened known (stepCalls pc accepts s input) =
      (Call.event input.order input.event).opens known := by
  have htearDowns : ∀ (conns known : List ConnectionId),
      opened known (conns.map (.tearDown input.order)) = known := by
    intro conns known
    induction conns with
    | nil => rfl
    | cons conn rest ih => exact ih
  unfold stepCalls
  dsimp only
  split
  · rfl
  · exact htearDowns _ _

theorem mem_opens {known : List ConnectionId} {d : ConnectionId} (c : Call) (h : d ∈ known) :
    d ∈ c.opens known := by
  unfold Call.opens
  split
  · exact List.mem_cons_of_mem _ h
  · exact h

theorem mem_opened {known : List ConnectionId} {d : ConnectionId} (cs : List Call) (h : d ∈ known) :
    d ∈ opened known cs := by
  induction cs generalizing known with
  | nil => exact h
  | cons c cs ih => exact ih (mem_opens c h)

theorem legal_append (known : List ConnectionId) (cs ds : List Call) :
    Legal known (cs ++ ds) ↔ Legal known cs ∧ Legal (opened known cs) ds := by
  induction cs generalizing known with
  | nil => simp [Legal, opened]
  | cons c cs ih => simp [Legal, opened, ih, and_assoc]

theorem legal_initially {known : List ConnectionId} {cs ds : List Call} (h : cs <+: ds)
    (hds : Legal known ds) : Legal known cs := by
  obtain ⟨rest, rfl⟩ := h
  exact ((legal_append known cs rest).mp hds).1

theorem execs_induction {P : List ConnectionId → ServerState → Prop}
    (step : ∀ known s c, P known s → c.Allowed known → P (c.opens known) (exec pc accepts s c))
    {known : List ConnectionId} {cs : List Call} {s : ServerState} (hcs : Legal known cs)
    (hs : P known s) : P (opened known cs) (execs pc accepts cs s) := by
  induction cs generalizing known s with
  | nil => exact hs
  | cons c cs ih => exact ih hcs.2 (step known s c hs hcs.1)

def joining : Call → Option ConnectionId
  | .event _ (.newConnection conn _) => some conn
  | _ => none

def leaving : Call → Option ConnectionId
  | .event _ (.disconnected conn) => some conn
  | .tearDown _ conn => some conn
  | _ => none

def controlOf (pc : Postcard) : Call → Option (ConnectionId × ControlMessage)
  | .event _ (.frame conn service payload) =>
    if service = 0 then (pc.controlFromBytes payload).map (fun msg => (conn, msg)) else none
  | _ => none

/-- All a call can do to the routing part of the state and to the set of
accepted connections. -/
inductive Reroutes (known : List ConnectionId) (s : RoutingState) :
    List ConnectionId → RoutingState → Prop
  | keep : Reroutes known s known s
  | connect (conn : ConnectionId) (provides : List Uuid) (h : conn ∉ known) :
      Reroutes known s (conn :: known) (s.connect conn provides)
  | declare (conn : ConnectionId) (service : Uuid) (h : conn ∈ known) :
      Reroutes known s known (s.handleDeclareInterest conn service).2
  | revoke (conn : ConnectionId) (sessionId : UInt16) :
      Reroutes known s known (s.revoke conn sessionId).2
  | remove (order : Order Endpoint) (conn : ConnectionId) :
      Reroutes known s known (s.removeConnection order conn).2

theorem processControl_reroutes {known : List ConnectionId} {conn : ConnectionId} {payload : Bytes}
    (h : ∀ service version, pc.controlFromBytes payload = some (.declareInterest service version) →
      conn ∈ known) (order : HashOrder) (s : ServerState) :
    Reroutes known s.toRoutingState known
      (s.processControl pc accepts order conn payload).toRoutingState := by
  unfold ServerState.processControl
  split
  · next service version hmsg =>
    rw [ServerFrame.toRoutingState_declareInterest]
    exact .declare conn service (h service version hmsg)
  · next sessionId _ =>
    rw [ServerFrame.toRoutingState_revokeInterest]
    exact .revoke conn sessionId
  · rw [ServerFrame.toRoutingState_watch]
    exact .keep
  · rw [ServerFrame.toRoutingState_unwatch]
    exact .keep
  · exact .keep

theorem exec_reroutes_of {known : List ConnectionId} (s : ServerState) (c : Call)
    (hjoin : ∀ conn, joining c = some conn → conn ∉ known)
    (hdeclare : ∀ conn service version,
      controlOf pc c = some (conn, .declareInterest service version) → conn ∈ known) :
    Reroutes known s.toRoutingState (c.opens known) (exec pc accepts s c).toRoutingState := by
  have hdisconnect : ∀ order conn, Reroutes known s.toRoutingState known
      (s.processDisconnect pc accepts order conn).toRoutingState := by
    intro order conn
    rw [ServerFrame.toRoutingState_processDisconnect]
    exact .remove order.routes conn
  cases c with
  | drain => exact .keep
  | tearDown order conn => exact hdisconnect order conn
  | event order event =>
    cases event with
    | newConnection conn hello => exact .connect conn hello.provides (hjoin conn rfl)
    | disconnected conn => exact hdisconnect order conn
    | frame conn service payload =>
      simp only [exec, processEvent, ServerState.processFrame]
      split
      · next hservice =>
        apply processControl_reroutes pc accepts
        intro service version hmsg
        apply hdeclare conn service version
        rw [controlOf, if_pos hservice, hmsg, Option.map_some]
      · rw [ServerFrame.toRoutingState_processService]
        exact .keep

theorem leaving_of_joining {c : Call} {conn : ConnectionId} (h : joining c = some conn) :
    leaving c = none := by
  cases c with
  | event order event =>
    cases event with
    | newConnection d hello => rfl
    | _ => cases h
  | _ => cases h

variable {pc} in
theorem controlOf_eq_some {c : Call} {conn : ConnectionId} {msg : ControlMessage}
    (h : controlOf pc c = some (conn, msg)) :
    ∃ order payload, c = .event order (.frame conn 0 payload) ∧
      pc.controlFromBytes payload = some msg := by
  cases c with
  | event order event =>
    cases event with
    | frame d service payload =>
      rw [controlOf] at h
      split at h
      · next hservice =>
        obtain ⟨msg', hmsg, he⟩ := Option.map_eq_some_iff.mp h
        cases he
        exact ⟨order, payload, by rw [hservice], hmsg⟩
      · cases h
    | _ => cases h
  | _ => cases h

variable {pc} in
theorem leaving_of_controlOf {c : Call} {conn : ConnectionId} {msg : ControlMessage}
    (h : controlOf pc c = some (conn, msg)) : leaving c = none := by
  obtain ⟨order, payload, rfl, -⟩ := controlOf_eq_some h
  rfl

theorem joining_notMem {known : List ConnectionId} {c : Call} {conn : ConnectionId}
    (hc : c.Allowed known) (hjoin : joining c = some conn) : conn ∉ known := by
  cases c with
  | event order event =>
    cases event with
    | newConnection d hello =>
      cases hjoin
      exact hc
    | _ => cases hjoin
  | _ => cases hjoin

theorem sender_mem {known : List ConnectionId} {c : Call} {conn : ConnectionId}
    {msg : ControlMessage} (hc : c.Allowed known) (hcontrol : controlOf pc c = some (conn, msg)) :
    conn ∈ known := by
  obtain ⟨order, payload, rfl, -⟩ := controlOf_eq_some hcontrol
  exact hc

theorem exec_reroutes {known : List ConnectionId} (s : ServerState) (c : Call)
    (hc : c.Allowed known) :
    Reroutes known s.toRoutingState (c.opens known) (exec pc accepts s c).toRoutingState :=
  exec_reroutes_of pc accepts s c (fun _ hjoin => joining_notMem hc hjoin)
    (fun _ _ _ hdeclare => sender_mem pc hc hdeclare)

end Pane.ServerActor
