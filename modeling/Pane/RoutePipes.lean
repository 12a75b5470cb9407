import Pane.Offers

namespace Pane.RoutePipes

open Pane.HashTable Pane.Messages Pane.Routing Pane.Server Pane.ServerFrame Pane.ServerActor
open Pane.RouteSymmetry Pane.RouteRemoval Pane.RouteTable Pane.Offers Pane.PostcardFormat

variable (pc : Postcard) (accepts : Nat → Bool)

def deliveries (s : ServerState) (k : Endpoint) : List Bytes :=
  (s.offered.filter (fun f => f.conn = k.1 ∧ f.service = k.2)).map Outbound.payload

def history : ServerState → List Call → List (ServerState × Call)
  | _, [] => []
  | s, c :: cs => (s, c) :: history (exec pc accepts s c) cs

theorem history_append (s : ServerState) (cs ds : List Call) :
    history pc accepts s (cs ++ ds) =
      history pc accepts s cs ++ history pc accepts (execs pc accepts cs s) ds := by
  induction cs generalizing s with
  | nil => rfl
  | cons c cs ih => rw [List.cons_append, history, history, ih, List.cons_append, execs_cons]

theorem mem_history {s : ServerState} {cs : List Call} {p : ServerState × Call}
    (h : p ∈ history pc accepts s cs) : ∃ pre, pre <+: cs ∧ p.1 = execs pc accepts pre s := by
  induction cs generalizing s with
  | nil => simp [history] at h
  | cons c cs ih =>
    obtain rfl | h := List.mem_cons.mp h
    · exact ⟨[], List.nil_prefix, rfl⟩
    · obtain ⟨pre, hpre, he⟩ := ih h
      exact ⟨c :: pre, List.cons_prefix_cons.mpr ⟨rfl, hpre⟩, he⟩

theorem history_split {s : ServerState} {cs : List Call} {before later : List (ServerState × Call)}
    {p : ServerState × Call} (h : history pc accepts s cs = before ++ p :: later) :
    ∃ pre post, cs = pre ++ p.2 :: post ∧ p.1 = execs pc accepts pre s ∧
      later = history pc accepts (exec pc accepts p.1 p.2) post := by
  induction cs generalizing s before with
  | nil =>
    cases before with
    | nil => cases h
    | cons q before => cases h
  | cons c cs ih =>
    cases before with
    | nil =>
      obtain ⟨rfl, rfl⟩ := List.cons.inj h
      exact ⟨[], cs, rfl, rfl, rfl⟩
    | cons q before =>
      obtain ⟨-, hrest⟩ := List.cons.inj h
      obtain ⟨pre, post, rfl, hp, hlater⟩ := ih hrest
      exact ⟨c :: pre, post, rfl, hp, hlater⟩

/-- The payload that a call sends over the route `r` to its end `k`: a service
frame from the other end, while the route stands and `k` has a writer. -/
def carried (k : Endpoint) (r : Route) (p : ServerState × Call) : Option Bytes :=
  match p.2 with
  | .event _ (.frame conn service payload) =>
    if service ≠ 0 ∧ (conn, service) = r.peer k.1 ∧
      p.1.routingTable.lookup (conn, service) = some r ∧
      p.1.routingTable.lookup k = some r ∧ k.1 ∈ p.1.writers then some payload else none
  | _ => none

def arriving (k : Endpoint) (p : ServerState × Call) : Option Bytes :=
  (p.1.routingTable.lookup k).bind (fun r => carried k r p)

theorem filter_tell {s : RoutingState} {k : Endpoint} (hk : k.2 ≠ 0)
    (msgs : List (ConnectionId × ControlMessage)) :
    (tell pc s msgs).filter (fun f => f.conn = k.1 ∧ f.service = k.2) = [] := by
  apply List.filter_eq_nil_iff.mpr
  intro f hf
  have h0 := service_of_mem_tell pc hf
  simp only [decide_eq_true_eq, not_and]
  intro _ he
  exact hk (he ▸ h0)

theorem filter_forwarded {s : ServerState} (hs : Symmetric s.toRoutingState) {k : Endpoint}
    {conn : ConnectionId} {service : UInt16} (hz : service ≠ 0) (payload : Bytes)
    (order : HashOrder) :
    ((forwarded s.toRoutingState conn service payload).filter
      (fun f => f.conn = k.1 ∧ f.service = k.2)).map Outbound.payload =
        (arriving k (s, .event order (.frame conn service payload))).toList := by
  cases hl : s.routingTable.lookup (conn, service) with
  | none => simp [forwarded, arriving, carried, hl]
  | some r =>
    obtain ⟨hpeer, hback, -⟩ := peer_peer hs hl
    by_cases hkp : r.peer conn = k
    · subst hkp
      by_cases hw : (r.peer conn).1 ∈ s.writers
      · simp [forwarded, arriving, carried, hl, hpeer, hback, hw, hz]
      · simp [forwarded, arriving, carried, hl, hpeer, hw]
    · have hnone : arriving k (s, .event order (.frame conn service payload)) = none := by
        cases hk : s.routingTable.lookup k with
        | none => simp [arriving, hk]
        | some r' =>
          simp only [arriving, hk, Option.bind_some, carried]
          rw [if_neg]
          rintro ⟨-, he, hr, -, -⟩
          obtain rfl : r' = r := Option.some.inj (hr.symm.trans hl)
          have h := (peer_peer hs hk).2.1
          rw [← he] at h
          exact hkp h
      have hne : ¬ ((r.peer conn).1 = k.1 ∧ (r.peer conn).2 = k.2) :=
        fun h => hkp (Prod.ext h.1 h.2)
      rw [hnone]
      by_cases hw : (r.peer conn).1 ∈ s.writers
      · simp [forwarded, hl, hw, hne]
      · simp [forwarded, hl, hw]

theorem filter_forwards {s : ServerState} (hs : Symmetric s.toRoutingState) (k : Endpoint)
    (c : Call) :
    ((forwards s c).filter (fun f => f.conn = k.1 ∧ f.service = k.2)).map Outbound.payload =
      (arriving k (s, c)).toList := by
  cases c with
  | drain => simp [forwards, arriving, carried]
  | tearDown order conn => simp [forwards, arriving, carried]
  | event order event =>
    cases event with
    | newConnection conn hello => simp [forwards, arriving, carried]
    | disconnected conn => simp [forwards, arriving, carried]
    | frame conn service payload =>
      by_cases hz : service = 0
      · simp [forwards, arriving, carried, hz]
      rw [forwards, if_neg hz]
      exact filter_forwarded hs hz payload order

theorem deliveries_exec {s : ServerState} (hs : Symmetric s.toRoutingState) {k : Endpoint}
    (hk : k.2 ≠ 0) (c : Call) :
    deliveries (exec pc accepts s c) k = deliveries s k ++ (arriving k (s, c)).toList := by
  rw [deliveries, offered_exec pc accepts hs, List.filter_append, List.filter_append,
    filter_tell pc hk, List.nil_append, List.map_append, filter_forwards hs, deliveries]

theorem deliveries_execs {known : List ConnectionId} {s : ServerState} {cs : List Call}
    (hs : Sound known s.toRoutingState) (hcs : Legal known cs) {k : Endpoint} (hk : k.2 ≠ 0) :
    deliveries (execs pc accepts cs s) k =
      deliveries s k ++ (history pc accepts s cs).filterMap (arriving k) := by
  induction cs generalizing known s with
  | nil => simp [history]
  | cons c cs ih =>
    rw [execs_cons, ih (sound_exec pc accepts hs hcs.1) hcs.2, deliveries_exec pc accepts hs.1 hk,
      List.append_assoc, history]
    cases h : arriving k (s, c) <;> simp [h]

section Uniqueness

variable {known known' : List ConnectionId} {r r' : RoutingState} {d : ConnectionId}

theorem writers_reroutes (h : Reroutes known r known' r') (hd : d ∈ known)
    (hw : d ∈ r'.writers) : d ∈ r.writers := by
  cases h with
  | keep => exact hw
  | connect conn provides hc =>
    obtain rfl | hw := (AList.mem_insert _).mp hw
    · exact absurd hd hc
    · exact hw
  | declare conn service _ => rwa [writers_declare] at hw
  | revoke conn sessionId => rwa [writers_revoke] at hw
  | remove order conn => exact (AList.mem_erase.mp hw).2

theorem lookup_reroutes (hs : Sound known r) (h : Reroutes known r known' r')
    (hw : d ∈ r'.writers) {t : UInt16} (ht : t < r.nextOf d) :
    t < r'.nextOf d ∧
      ∀ route, r'.routingTable.lookup (d, t) = some route →
        r.routingTable.lookup (d, t) = some route := by
  cases h with
  | keep => exact ⟨ht, fun _ hk => hk⟩
  | connect conn provides hc =>
    refine ⟨?_, fun _ hk => hk⟩
    rwa [nextOf_connect hs.within hc]
  | declare conn service _ =>
    refine ⟨UInt16.lt_of_lt_of_le ht (nextOf_le_declare conn service d), fun route hk => ?_⟩
    obtain ⟨_, he⟩ | ⟨-, he⟩ | ⟨p, -, -, -, ⟨-, he⟩ | ⟨-, he⟩⟩ :=
      RoutingState.handleDeclareInterest_cases conn service r <;> rw [he] at hk
    · exact hk
    · exact hk
    · exact hk
    · obtain hk | ⟨rfl, hk | hk⟩ := (lookup_link_iff hs.symmetric conn p (d, t) route).mp hk
      · exact hk
      · obtain ⟨rfl, rfl⟩ := Prod.mk.inj hk
        exact absurd ht (UInt16.lt_irrefl _)
      · obtain ⟨rfl, rfl⟩ := Prod.mk.inj hk
        exact absurd ht (UInt16.lt_irrefl _)
  | revoke conn sessionId =>
    refine ⟨by rwa [nextOf_revoke], fun route hk => ?_⟩
    cases hl : r.routingTable.lookup (conn, sessionId) with
    | none => rwa [RoutingState.revoke_none hl] at hk
    | some route' => exact ((lookup_revoke hs.symmetric hl _ _).mp hk).1
  | remove order conn =>
    refine ⟨?_, fun route hk => ((lookup_removeConnection hs.symmetric order conn _ _).mp hk).1⟩
    rwa [nextOf_removeConnection, if_neg (AList.mem_erase.mp hw).1]

variable {s : ServerState} {cs : List Call}

theorem writers_execs (hcs : Legal known cs) (hd : d ∈ known)
    (hw : d ∈ (execs pc accepts cs s).writers) : d ∈ s.writers := by
  induction cs generalizing known s with
  | nil => exact hw
  | cons c cs ih =>
    exact writers_reroutes (exec_reroutes pc accepts s c hcs.1) hd (ih hcs.2 (mem_opens c hd) hw)

theorem lookup_execs (hs : Sound known s.toRoutingState) (hcs : Legal known cs) (hd : d ∈ known)
    (hw : d ∈ (execs pc accepts cs s).writers) {t : UInt16} (ht : t < s.nextOf d) :
    t < (execs pc accepts cs s).nextOf d ∧
      ∀ route, (execs pc accepts cs s).routingTable.lookup (d, t) = some route →
        s.routingTable.lookup (d, t) = some route := by
  induction cs generalizing known s with
  | nil => exact ⟨ht, fun _ hk => hk⟩
  | cons c cs ih =>
    have hd' := mem_opens c hd
    have hw' : d ∈ (exec pc accepts s c).writers := writers_execs pc accepts hcs.2 hd' hw
    obtain ⟨ht', hback⟩ := lookup_reroutes hs (exec_reroutes pc accepts s c hcs.1) hw' ht
    obtain ⟨ht'', hrest⟩ := ih (sound_exec pc accepts hs hcs.1) hcs.2 hd' hw ht'
    exact ⟨ht'', fun route hk => hback route (hrest route hk)⟩

end Uniqueness

theorem route_unique {cs pre mid post : List Call} (hcs : Legal [] cs) (hpre : pre <+: mid)
    (hmid : mid <+: post) (hpost : post <+: cs) {k : Endpoint} {r r' : Route}
    (hr : (execs pc accepts pre Server.new).routingTable.lookup k = some r)
    (hr' : (execs pc accepts post Server.new).routingTable.lookup k = some r')
    (hw : k.1 ∈ (execs pc accepts post Server.new).writers) :
    r' = r ∧ (execs pc accepts mid Server.new).routingTable.lookup k = some r := by
  obtain ⟨pre', rfl⟩ := hpre
  obtain ⟨mid', rfl⟩ := hmid
  obtain ⟨post', rfl⟩ := hpost
  obtain ⟨hl, -⟩ := (legal_append [] (pre ++ pre' ++ mid') post').mp hcs
  obtain ⟨hl, hmid'⟩ := (legal_append [] (pre ++ pre') mid').mp hl
  obtain ⟨hpre, hpre'⟩ := (legal_append [] pre pre').mp hl
  have hs := sound_execs pc accepts sound_new hpre
  have hs' := sound_execs pc accepts sound_new hl
  have hd := hs.within.routes k r hr
  have hd' : k.1 ∈ opened [] (pre ++ pre') := by
    rw [opened, List.foldl_append]
    exact mem_opened pre' hd
  rw [execs_append] at hr' hw
  have hw' := writers_execs pc accepts hmid' hd' hw
  rw [execs_append] at hw'
  obtain ⟨ht, hback⟩ := lookup_execs pc accepts hs hpre' hd hw' (hs.symmetric.numbered k r hr)
  rw [← execs_append] at ht hback
  have hk := (lookup_execs pc accepts hs' hmid' hd' hw ht).2 r' hr'
  obtain rfl : r' = r := Option.some.inj ((hback r' hk).symm.trans hr)
  exact ⟨rfl, hk⟩

theorem carried_eq_none {k : Endpoint} {r : Route} {p : ServerState × Call}
    (h : ¬ (p.1.routingTable.lookup k = some r ∧ k.1 ∈ p.1.writers)) : carried k r p = none := by
  unfold carried
  split
  · rw [if_neg]
    rintro ⟨-, -, -, hk, hw⟩
    exact h ⟨hk, hw⟩
  · rfl

theorem arriving_eq {k : Endpoint} {r : Route} {p : ServerState × Call}
    (h : ∀ r', p.1.routingTable.lookup k = some r' → k.1 ∈ p.1.writers → r' = r) :
    arriving k p = carried k r p := by
  cases hk : p.1.routingTable.lookup k with
  | none => rw [carried_eq_none (by simp [hk]), arriving, hk, Option.bind_none]
  | some r' =>
    rw [arriving, hk, Option.bind_some]
    by_cases hw : k.1 ∈ p.1.writers
    · rw [h r' hk hw]
    · rw [carried_eq_none (fun he => hw he.2), carried_eq_none (fun he => hw he.2)]

theorem deliveries_eq_carried {cs pre : List Call} (hcs : Legal [] cs) (hpre : pre <+: cs)
    {k : Endpoint} {r : Route} (hk : k.2 ≠ 0)
    (hr : (execs pc accepts pre Server.new).routingTable.lookup k = some r)
    (hw : k.1 ∈ (execs pc accepts pre Server.new).writers) :
    deliveries (execs pc accepts cs Server.new) k =
      (history pc accepts Server.new cs).filterMap (carried k r) := by
  rw [deliveries_execs pc accepts sound_new hcs hk]
  apply List.filterMap_congr
  intro p hp
  obtain ⟨pre', hpre', he⟩ := mem_history pc accepts hp
  apply arriving_eq
  intro r' hr' hw'
  rw [he] at hr' hw'
  obtain h | h := List.prefix_or_prefix_of_prefix hpre hpre'
  · exact (route_unique pc accepts hcs h (List.prefix_refl _) hpre' hr hr' hw').1
  · exact (route_unique pc accepts hcs h (List.prefix_refl _) hpre hr' hr hw).1.symm

/-- Routing is a set of private pipes. What is offered to a session is what its
route carried from the other end while it stood, in order; a session without a
route is offered nothing; and a session that carries a route carries it without
interruption, and no other, while its connection has a writer. -/
theorem routes_are_pipes (inputs : List Input) (horderly : Orderly [] inputs) (k : Endpoint)
    (hk : k.2 ≠ 0) :
    let calls := runCalls pc accepts Server.new inputs
    let after := fun pre => execs pc accepts pre Server.new
    ((∀ pre, pre <+: calls → k.1 ∈ (after pre).writers → k ∉ (after pre).routingTable) →
      deliveries (actorLoop pc accepts inputs) k = []) ∧
    (∀ pre r, pre <+: calls → (after pre).routingTable.lookup k = some r →
      k.1 ∈ (after pre).writers →
      deliveries (actorLoop pc accepts inputs) k =
        (history pc accepts Server.new calls).filterMap (carried k r)) ∧
    (∀ pre mid post r r', pre <+: mid → mid <+: post → post <+: calls →
      (after pre).routingTable.lookup k = some r →
      (after post).routingTable.lookup k = some r' → k.1 ∈ (after post).writers →
      r' = r ∧ (after mid).routingTable.lookup k = some r) := by
  intro calls after
  have hcs : Legal [] calls := legal_runCalls pc accepts Server.new horderly
  refine ⟨fun hnone => ?_, fun pre r hpre hr hw => ?_, ?_⟩
  · rw [actorLoop_eq, deliveries_execs pc accepts sound_new hcs hk]
    apply List.filterMap_eq_nil_iff.mpr
    intro p hp
    obtain ⟨pre, hpre, he⟩ := mem_history pc accepts hp
    cases hl : p.1.routingTable.lookup k with
    | none => rw [arriving, hl, Option.bind_none]
    | some r =>
      rw [arriving, hl, Option.bind_some]
      apply carried_eq_none
      rintro ⟨-, hw⟩
      rw [he] at hl hw
      exact hnone pre hpre hw (mem_of_lookup hl)
  · rw [actorLoop_eq]
    exact deliveries_eq_carried pc accepts hcs hpre hk hr hw
  · intro pre mid post r r' h1 h2 h3 hr hr' hw
    exact route_unique pc accepts hcs h1 h2 h3 hr hr' hw

def conversation : List Input :=
  handshake ++ [⟨.frame ⟨2⟩ 1 [1, 2, 3], .stored⟩, ⟨.frame ⟨1⟩ 1 [9], .stored⟩,
    ⟨.frame ⟨2⟩ 1 [4], .stored⟩]

theorem routes_are_pipes_conversation :
    Orderly [] conversation ∧
    deliveries (actorLoop postcard (fun _ => true) conversation) (⟨1⟩, 1) = [[1, 2, 3], [4]] := by
  have h : Orderly [] conversation := by simp [conversation, handshake, Orderly]
  have hpipe := (routes_are_pipes postcard (fun _ => true) conversation h (⟨1⟩, 1)
    (by decide)).2.1 _ ⟨⟨2⟩, 1, ⟨1⟩, 1⟩ (List.take_prefix 3 _) (by decide +kernel)
    (by decide +kernel)
  exact ⟨h, hpipe.trans (by decide +kernel)⟩

end Pane.RoutePipes
