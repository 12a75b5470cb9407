import Pane.GhostConnections

namespace Pane.ProviderSelection

open Pane.HashTable Pane.Messages Pane.Routing Pane.Routing.RoutingState Pane.Server
open Pane.ServerFrame Pane.ServerActor Pane.RouteSymmetry Pane.RouteRemoval Pane.RouteTable
open Pane.Offers Pane.RoutePipes Pane.GhostConnections Pane.PostcardFormat

variable (pc : Postcard) (accepts : Nat → Bool)

def ranked (service : Uuid) (ranks : List ConnectionId) : Call → List ConnectionId
  | .event _ (.newConnection conn hello) =>
    if service ∈ hello.provides then ranks ++ [conn] else ranks
  | .event _ (.disconnected conn) => ranks.filter (fun c => c ≠ conn)
  | .tearDown _ conn => ranks.filter (fun c => c ≠ conn)
  | _ => ranks

/-- The connections that offered a service when they were accepted and have not been
removed, in the order in which they were accepted. -/
def providersAfter (service : Uuid) (calls : List Call) : List ConnectionId :=
  calls.foldl (ranked service) []

section Index

variable {index : Table Uuid (List ConnectionId)} {conn : ConnectionId} {u : Uuid}

def indexed (index : Table Uuid (List ConnectionId)) (u : Uuid) : List ConnectionId :=
  (index.lookup u).getD []

theorem head_indexed (s : RoutingState) : (indexed s.providerIndex u).head? = s.provider u := by
  unfold indexed RoutingState.provider
  cases s.providerIndex.lookup u <;> rfl

theorem indexed_pushProvider (service : Uuid) :
    indexed (pushProvider conn index service) u =
      if u = service then indexed index u ++ [conn] else indexed index u := by
  unfold pushProvider indexed
  rw [lookup_insert]
  split
  · next h => rw [h, Option.getD_some]
  · rfl

theorem find_registerProvides (provides : List Uuid) (keep : ConnectionId → Bool) :
    (indexed (provides.foldl (pushProvider conn) index) u).find? keep =
      ((indexed index u).find? keep).or
        (if u ∈ provides ∧ keep conn then some conn else none) := by
  induction provides generalizing index with
  | nil => simp
  | cons service provides ih =>
    rw [List.foldl_cons, ih, indexed_pushProvider]
    by_cases h : u = service
    · by_cases hk : keep conn <;> simp [h, hk, List.find?_append]
    · simp [h]

theorem indexed_retainProviders (service : Uuid) :
    indexed (retainProviders conn index service) u =
      if u = service then (indexed index u).filter (fun c => c ≠ conn) else indexed index u := by
  unfold retainProviders
  cases h : index.lookup service with
  | none =>
    dsimp only
    split
    · next hu =>
      subst hu
      simp [indexed, h]
    · rfl
  | some providers =>
    dsimp only
    split
    · next hnone =>
      unfold indexed
      rw [lookup_erase]
      split
      · next hu => rw [hu, h, Option.getD_some, hnone, Option.getD_none]
      · rfl
    · unfold indexed
      rw [lookup_insert]
      split
      · next hu => rw [hu, h, Option.getD_some, Option.getD_some]
      · rfl

theorem indexed_removed :
    indexed (index.keys.foldl (retainProviders conn) index) u =
      (indexed index u).filter (fun c => c ≠ conn) := by
  have hfold : ∀ (services : List Uuid) (index : Table Uuid (List ConnectionId)),
      indexed (services.foldl (retainProviders conn) index) u =
        if u ∈ services then (indexed index u).filter (fun c => c ≠ conn) else indexed index u := by
    intro services
    induction services with
    | nil => simp
    | cons service services ih =>
      intro index
      rw [List.foldl_cons, ih, indexed_retainProviders]
      by_cases h : u = service <;> by_cases hs : u ∈ services <;> simp [h, hs, List.filter_filter]
  rw [hfold]
  split
  · rfl
  · next h =>
    have hnone : index.lookup u = none :=
      AList.lookup_eq_none.mpr (fun hu => h (AList.mem_keys.mp hu))
    simp [indexed, hnone]

end Index

theorem providerIndex_declare (s : RoutingState) (conn : ConnectionId) (service : Uuid) :
    (s.handleDeclareInterest conn service).2.providerIndex = s.providerIndex := by
  obtain ⟨_, he⟩ | ⟨-, he⟩ | ⟨p, -, -, -, ⟨-, he⟩ | ⟨-, he⟩⟩ :=
    handleDeclareInterest_cases conn service s <;> rw [he]
  rfl

theorem providerIndex_revoke (s : RoutingState) (conn : ConnectionId) (sessionId : UInt16) :
    (s.revoke conn sessionId).2.providerIndex = s.providerIndex := by
  unfold revoke
  split <;> rfl

/-- The index of the server ranks the providers of a service as the history of the run
does, as far as the first provider of any kind is concerned. -/
structure Ranked (u : Uuid) (s : ServerState) (ranks : List ConnectionId) : Prop where
  found : ∀ keep, (indexed s.providerIndex u).find? keep = ranks.find? keep
  written : ∀ p ∈ ranks, p ∈ s.writers

theorem ranked_new (u : Uuid) : Ranked u Server.new [] :=
  ⟨fun _ => rfl, fun _ hp => absurd hp List.not_mem_nil⟩

theorem ranked_disconnect {u : Uuid} {s : ServerState} {ranks : List ConnectionId}
    (h : Ranked u s ranks) (order : HashOrder) (conn : ConnectionId) :
    Ranked u (s.processDisconnect pc accepts order conn) (ranks.filter (fun c => c ≠ conn)) := by
  refine ⟨fun keep => ?_, fun p hp => ?_⟩ <;> rw [toRoutingState_processDisconnect]
  · show (indexed (s.providerIndex.keys.foldl (retainProviders conn) s.providerIndex) u).find? keep
      = _
    rw [indexed_removed, List.find?_filter, List.find?_filter, h.found]
  · obtain ⟨hp, hne⟩ := List.mem_filter.mp hp
    exact AList.mem_erase.mpr ⟨of_decide_eq_true hne, h.written p hp⟩

theorem ranked_exec {u : Uuid} {s : ServerState} {ranks : List ConnectionId}
    (h : Ranked u s ranks) (c : Call) :
    Ranked u (exec pc accepts s c) (ranked u ranks c) := by
  cases c with
  | drain => exact ⟨h.found, h.written⟩
  | tearDown order conn => exact ranked_disconnect pc accepts h order conn
  | event order event =>
    cases event with
    | disconnected conn => exact ranked_disconnect pc accepts h order conn
    | newConnection conn hello =>
      refine ⟨fun keep => ?_, fun p hp => ?_⟩
      · show (indexed (hello.provides.foldl (pushProvider conn) s.providerIndex) u).find? keep = _
        rw [find_registerProvides, h.found, ranked]
        by_cases hu : u ∈ hello.provides <;> by_cases hk : keep conn <;>
          simp [hu, hk, List.find?_append]
      · refine (AList.mem_insert _).mpr ?_
        rw [ranked] at hp
        split at hp
        · obtain hp | hp := List.mem_append.mp hp
          · exact .inr (h.written p hp)
          · exact .inl (List.mem_singleton.mp hp)
        · exact .inr (h.written p hp)
    | frame conn service payload =>
      have hindex : (exec pc accepts s (.event order (.frame conn service payload))).providerIndex =
          s.providerIndex := by
        simp only [exec, processEvent, ServerState.processFrame, ServerState.processControl]
        split
        · split <;> simp [providerIndex_declare, providerIndex_revoke]
        · simp
      refine ⟨fun keep => ?_, fun p hp => ?_⟩
      · rw [hindex]
        exact h.found keep
      · exact (mem_writers_exec pc accepts s _ p).mpr (.inr ⟨h.written p hp, fun heq => by cases heq⟩)

theorem ranked_execs {u : Uuid} {s : ServerState} {ranks : List ConnectionId}
    (h : Ranked u s ranks) (cs : List Call) :
    Ranked u (execs pc accepts cs s) (cs.foldl (ranked u) ranks) := by
  induction cs generalizing s ranks with
  | nil => exact h
  | cons c cs ih => exact ih (ranked_exec pc accepts h c)

theorem Ranked.provider {u : Uuid} {s : ServerState} {ranks : List ConnectionId}
    (h : Ranked u s ranks) : s.provider u = ranks.head? := by
  have hhead : ∀ l : List ConnectionId, l.find? (fun _ => true) = l.head? := by
    intro l
    cases l <;> rfl
  rw [← head_indexed, ← hhead, ← hhead, h.found]

section Counters

variable {pc accepts}

/-- Every connection with a writer has a counter, and the sessions that were handed out
on it are below it. -/
structure Counted (known : List ConnectionId) (s : RoutingState) (es : List Endpoint) : Prop
    extends Sound known s where
  counted : ∀ d ∈ s.writers, d ∈ s.nextSession
  met : ∀ e ∈ es, e.1 ∈ known
  below : ∀ e ∈ es, e.1 ∈ s.writers → e.2 < s.nextOf e.1

theorem counted_new : Counted [] Server.new.toRoutingState [] :=
  ⟨sound_new, fun d hd => absurd hd (AList.notMem_empty d), nofun, nofun⟩

theorem counted_reroutes {known known' : List ConnectionId} {s s' : RoutingState}
    (hr : Reroutes known s known' s') (h : ∀ d ∈ s.writers, d ∈ s.nextSession) (d : ConnectionId)
    (hd : d ∈ s'.writers) : d ∈ s'.nextSession := by
  cases hr with
  | keep => exact h d hd
  | connect conn provides hc =>
    exact (AList.mem_insert _).mpr (((AList.mem_insert _).mp hd).imp id (h d))
  | declare conn service hc =>
    rw [writers_declare] at hd
    have hn := h d hd
    obtain ⟨_, he⟩ | ⟨-, he⟩ | ⟨p, -, -, -, ⟨-, he⟩ | ⟨-, he⟩⟩ :=
      handleDeclareInterest_cases conn service s <;> rw [he]
    · exact hn
    · exact (AList.mem_insert _).mpr (.inr hn)
    · exact (AList.mem_insert _).mpr (.inr ((AList.mem_insert _).mpr (.inr hn)))
    · exact (AList.mem_insert _).mpr (.inr ((AList.mem_insert _).mpr (.inr hn)))
  | revoke conn sessionId =>
    rw [writers_revoke] at hd
    have hsame : (s.revoke conn sessionId).2.nextSession = s.nextSession := by
      unfold revoke
      split <;> rfl
    rw [hsame]
    exact h d hd
  | remove order conn =>
    obtain ⟨hne, hd⟩ := AList.mem_erase.mp hd
    exact AList.mem_erase.mpr ⟨hne, h d hd⟩

theorem counted_exec {known : List ConnectionId} {s : ServerState} {c : Call} {es : List Endpoint}
    (h : Counted known s.toRoutingState es) (hc : c.Allowed known) :
    Counted (c.opens known) (exec pc accepts s c).toRoutingState (es ++ granted pc (s, c)) := by
  obtain ⟨hmet, hbelow⟩ := below_exec accepts h.toSound hc h.met h.below
  exact ⟨sound_exec pc accepts h.toSound hc,
    counted_reroutes (exec_reroutes pc accepts s c hc) h.counted, hmet, hbelow⟩

theorem counted_execs {known : List ConnectionId} {s : ServerState} {cs : List Call}
    {es : List Endpoint} (h : Counted known s.toRoutingState es) (hcs : Legal known cs) :
    Counted (opened known cs) (execs pc accepts cs s).toRoutingState
      (es ++ (history pc accepts s cs).flatMap (granted pc)) := by
  induction cs generalizing known s es with
  | nil => simpa [history, opened] using h
  | cons c cs ih =>
    rw [history, List.flatMap_cons, ← List.append_assoc]
    exact ih (counted_exec h hcs.1) hcs.2

end Counters

def decoded (f : Outbound) : ConnectionId × UInt16 × Option ControlMessage :=
  (f.conn, f.service, pc.controlFromBytes f.payload)

def Sends (s s' : ServerState) (msgs : List (ConnectionId × ControlMessage)) : Prop :=
  ∃ frames, s'.offered = s.offered ++ frames ∧
    frames.map (decoded pc) = msgs.map (fun m => (m.1, 0, some m.2))

variable {pc}

theorem decoded_tell (hpc : pc.ControlRoundTrip) {s : RoutingState}
    {msgs : List (ConnectionId × ControlMessage)} (h : ∀ m ∈ msgs, m.1 ∈ s.writers) :
    (tell pc s msgs).map (decoded pc) = msgs.map (fun m => (m.1, 0, some m.2)) := by
  induction msgs with
  | nil => rfl
  | cons m msgs ih =>
    obtain ⟨bytes, hbytes, hback⟩ := hpc m.2
    have hrest := ih (fun m' hm' => h m' (List.mem_cons_of_mem _ hm'))
    have hfirst : tell pc s (m :: msgs) = ⟨m.1, 0, bytes⟩ :: tell pc s msgs := by
      simp [ServerFrame.tell, h m List.mem_cons_self, hbytes]
    rw [hfirst, List.map_cons, List.map_cons, hrest, decoded, hback]

theorem sends_declaration (hpc : pc.ControlRoundTrip) {s : ServerState} {c : ConnectionId}
    {service : Uuid} {version : UInt32} {payload : Bytes} (order : HashOrder)
    (hmsg : pc.controlFromBytes payload = some (.declareInterest service version))
    {msgs : List (ConnectionId × ControlMessage)}
    (hmsgs : declareNotices s.toRoutingState c service = msgs)
    (hwriters : ∀ m ∈ msgs, m.1 ∈ s.writers) :
    Sends pc s (processEvent pc accepts order s (.frame c 0 payload)) msgs := by
  refine ⟨tell pc s.toRoutingState msgs, ?_, decoded_tell hpc hwriters⟩
  simp only [processEvent, ServerState.processFrame, if_true, offered_processControl,
    controlNotices, hmsg, hmsgs]

structure Wires (s s' : RoutingState) (r : Route) : Prop where
  free : s.routingTable.lookup r.consumer = none ∧ s.routingTable.lookup r.provider = none
  routes : ∀ k r', s'.routingTable.lookup k = some r' ↔
    s.routingTable.lookup k = some r' ∨ r' = r ∧ (k = r'.consumer ∨ k = r'.provider)

theorem wires_link {s : RoutingState} (hs : Symmetric s) (c p : ConnectionId) :
    Wires s (s.link c p) (s.freshRoute c p) :=
  ⟨⟨lookup_fresh hs c, lookup_fresh hs p⟩, lookup_link_iff hs c p⟩

/-- The answer to a declaration by the history of the run: the first provider that is
left decides, both ends of the new route get its sessions, and these are larger than all
that were handed out on the same connections. -/
theorem provider_selection (hpc : pc.ControlRoundTrip) (inputs : List Input)
    (horderly : Orderly [] inputs) (c : ConnectionId) (service : Uuid) (version : UInt32)
    (payload : Bytes) (order : HashOrder)
    (hwriter : c ∈ (actorLoop pc accepts inputs).writers)
    (hmsg : pc.controlFromBytes payload = some (.declareInterest service version)) :
    let s := actorLoop pc accepts inputs
    let s' := processEvent pc accepts order s (.frame c 0 payload)
    let calls := runCalls pc accepts Server.new inputs
    match (providersAfter service calls).head? with
    | none => Sends pc s s' [(c, .interestDeclined service .serviceUnknown)]
    | some p =>
      if p = c then Sends pc s s' [(c, .interestDeclined service .selfProvide)]
      else if s.nextSession.lookup c = some 0xFFFF ∨ s.nextSession.lookup p = some 0xFFFF then
        Sends pc s s' [(c, .interestDeclined service .sessionExhausted)]
      else ∃ m n, s.nextSession.lookup c = some m ∧ s.nextSession.lookup p = some n ∧
        Sends pc s s' [(c, .interestAccepted service m 1), (p, .interestAccepted service n 1)] ∧
        Wires s.toRoutingState s'.toRoutingState ⟨c, m, p, n⟩ ∧
        ∀ e ∈ (history pc accepts Server.new calls).flatMap (granted pc),
          (e.1 = c → e.2 < m) ∧ (e.1 = p → e.2 < n) := by
  intro s s' calls
  have hlegal := legal_runCalls pc accepts Server.new horderly
  have hranked : Ranked service s (providersAfter service calls) := by
    rw [show s = _ from actorLoop_eq pc accepts inputs]
    exact ranked_execs pc accepts (ranked_new service) calls
  have hcounted : Counted (opened [] calls) s.toRoutingState
      ((history pc accepts Server.new calls).flatMap (granted pc)) := by
    rw [show s = _ from actorLoop_eq pc accepts inputs]
    exact counted_execs counted_new hlegal
  have hcontrol : controlOf pc (.event order (.frame c 0 payload)) =
      some (c, .declareInterest service version) := by
    rw [controlOf, if_pos rfl, hmsg, Option.map_some]
  have hrouting : s'.toRoutingState = (s.handleDeclareInterest c service).2 :=
    toRoutingState_declaration accepts hcontrol
  have hanswer := handleDeclareInterest_eq c service s.toRoutingState
  rw [hranked.provider] at hanswer
  have hdeclined : ∀ reason, (s.handleDeclareInterest c service).1 = .error reason →
      Sends pc s s' [(c, .interestDeclined service reason)] := by
    intro reason he
    refine sends_declaration accepts hpc order hmsg ?_ (by simpa using hwriter)
    rw [declareNotices, he]
  cases hp : (providersAfter service calls).head? with
  | none =>
    rw [hp] at hanswer
    exact hdeclined .serviceUnknown (by rw [hanswer])
  | some p =>
    rw [hp] at hanswer
    dsimp only at hanswer ⊢
    have hpw : p ∈ s.writers := hranked.written p (List.mem_of_head? hp)
    obtain ⟨m, hm⟩ := mem_iff_lookup.mp (hcounted.counted c hwriter)
    obtain ⟨n, hn⟩ := mem_iff_lookup.mp (hcounted.counted p hpw)
    have hcm : s.nextOf c = m := by rw [nextOf, hm, Option.getD_some]
    have hpn : s.nextOf p = n := by rw [nextOf, hn, Option.getD_some]
    rw [hm, hn]
    rw [hcm, hpn] at hanswer
    split
    · next hself =>
      rw [if_pos hself] at hanswer
      exact hdeclined .selfProvide (by rw [hanswer])
    next hself =>
    rw [if_neg hself] at hanswer
    split
    · next hexhausted =>
      refine hdeclined .sessionExhausted ?_
      rw [Option.some.injEq, Option.some.injEq] at hexhausted
      obtain h | h := hexhausted
      · rw [hanswer, if_pos h]
      · rw [hanswer, if_pos h]
        split <;> rfl
    next hexhausted =>
    rw [Option.some.injEq, Option.some.injEq] at hexhausted
    obtain ⟨hmore, hpmore⟩ := not_or.mp hexhausted
    rw [if_neg hmore, if_neg hpmore] at hanswer
    refine ⟨m, n, rfl, rfl, ?_, ?_, fun e he => ⟨?_, ?_⟩⟩
    · refine sends_declaration accepts hpc order hmsg ?_ (by simpa using ⟨hwriter, hpw⟩)
      rw [declareNotices, hanswer]
    · rw [hrouting, hanswer]
      have hwires := wires_link hcounted.symmetric c p
      rwa [freshRoute, hcm, hpn] at hwires
    · rintro rfl
      exact hcm ▸ hcounted.below e he hwriter
    · rintro rfl
      exact hpn ▸ hcounted.below e he hpw

def successors : List Input :=
  [⟨.newConnection ⟨1⟩ ⟨[clipboard, clipboard]⟩, .stored⟩,
    ⟨.newConnection ⟨2⟩ ⟨[clipboard]⟩, .stored⟩, ⟨.newConnection ⟨3⟩ ⟨[]⟩, .stored⟩,
    ⟨.disconnected ⟨1⟩, .stored⟩]

theorem provider_selection_successor :
    Orderly [] successors ∧
    providersAfter clipboard
      (runCalls postcard (fun _ => true) Server.new successors) = [⟨2⟩] ∧
    Sends postcard (actorLoop postcard (fun _ => true) successors)
      (processEvent postcard (fun _ => true) .stored
        (actorLoop postcard (fun _ => true) successors)
        (.frame ⟨3⟩ 0 (controlMessage.encode (.declareInterest clipboard 1))))
      [(⟨3⟩, .interestAccepted clipboard 1 1), (⟨2⟩, .interestAccepted clipboard 1 1)] := by
  have horderly : Orderly [] successors := by simp [successors, Orderly]
  have hranks : providersAfter clipboard
      (runCalls postcard (fun _ => true) Server.new successors) = [⟨2⟩] := by decide +kernel
  have h := provider_selection (fun _ => true) postcard_control successors horderly ⟨3⟩ clipboard 1
    (controlMessage.encode (.declareInterest clipboard 1)) .stored (by decide +kernel)
    (by decide +kernel)
  have hthird : (actorLoop postcard (fun _ => true) successors).nextSession.lookup ⟨3⟩ = some 1 := by
    decide +kernel
  have hsecond : (actorLoop postcard (fun _ => true) successors).nextSession.lookup ⟨2⟩ = some 1 := by
    decide +kernel
  simp only [hranks, List.head?_cons, hthird, hsecond] at h
  rw [if_neg (by decide), if_neg (by decide)] at h
  obtain ⟨m, n, hm, hn, hsends, -⟩ := h
  cases hm
  cases hn
  exact ⟨horderly, hranks, hsends⟩

end Pane.ProviderSelection
