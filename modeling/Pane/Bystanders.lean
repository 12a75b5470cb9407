import Pane.DeclinedInterests
import Pane.Departures

namespace Pane.Bystanders

open Pane.HashTable Pane.Messages Pane.Routing Pane.Routing.RoutingState Pane.Server
open Pane.Server.ServerState Pane.ServerFrame Pane.ServerActor Pane.RouteSymmetry
open Pane.RouteRemoval Pane.RouteTable Pane.Offers Pane.RoutePipes Pane.Attempts Pane.Watches
open Pane.GhostConnections Pane.SteadyRuns Pane.DeclinedInterests Pane.ProviderSelection
open Pane.Departures Pane.PostcardFormat

section Routing

variable {x : ConnectionId} {r r' : RoutingState}

structure Alike (x : ConnectionId) (r r' : RoutingState) : Prop where
  providers : ∀ u, r.providerIndex.lookup u = r'.providerIndex.lookup u
  routes : ∀ k, r.routingTable.lookup k = r'.routingTable.lookup k
  counters : ∀ d, d ≠ x → r.nextSession.lookup d = r'.nextSession.lookup d
  writers : ∀ d, d ≠ x → (d ∈ r.writers ↔ d ∈ r'.writers)

theorem Alike.provider (h : Alike x r r') (u : Uuid) : r.provider u = r'.provider u := by
  rw [RoutingState.provider, h.providers]
  rfl

theorem Alike.nextOf (h : Alike x r r') {d : ConnectionId} (hd : d ≠ x) :
    r.nextOf d = r'.nextOf d := by
  rw [RoutingState.nextOf, h.counters d hd]
  rfl

theorem lookup_insert_congr {K V : Type} [DecidableEq K] {t t' : Table K V} {a : K} (b : K) (v : V)
    (h : t.lookup a = t'.lookup a) : (t.insert b v).lookup a = (t'.insert b v).lookup a := by
  rw [lookup_insert, lookup_insert, h]

theorem lookup_erase_congr {K V : Type} [DecidableEq K] {t t' : Table K V} {a : K} (b : K)
    (h : t.lookup a = t'.lookup a) : (t.erase b).lookup a = (t'.erase b).lookup a := by
  rw [lookup_erase, lookup_erase, h]

structure Unserved (x : ConnectionId) (r : RoutingState) : Prop where
  providers : ∀ u ps, r.providerIndex.lookup u = some ps → x ∉ ps
  routes : ∀ k route, r.routingTable.lookup k = some route →
    k.1 ≠ x ∧ route.consumerConn ≠ x ∧ route.providerConn ≠ x

theorem Unserved.alike (h : Alike x r r') (hx : Unserved x r') : Unserved x r :=
  ⟨fun u ps hu => hx.providers u ps (h.providers u ▸ hu),
    fun k route hk => hx.routes k route (h.routes k ▸ hk)⟩

theorem Unserved.provider_ne (hx : Unserved x r) {u : Uuid} {p : ConnectionId}
    (h : r.provider u = some p) : p ≠ x := by
  obtain ⟨ps, hps, hhead⟩ := Option.bind_eq_some_iff.mp h
  rintro rfl
  exact hx.providers u ps hps (List.mem_of_head? hhead)

theorem Unserved.no_route (hx : Unserved x r) (n : UInt16) : r.routingTable.lookup (x, n) = none := by
  cases h : r.routingTable.lookup (x, n) with
  | none => rfl
  | some route => exact absurd rfl (hx.routes _ route h).1

theorem alike_link (h : Alike x r r') {c p : ConnectionId} (hc : c ≠ x) (hp : p ≠ x) :
    Alike x (r.link c p) (r'.link c p) := by
  refine ⟨h.providers, fun k => ?_, fun d hd => ?_, h.writers⟩
  · unfold link freshRoute
    rw [h.nextOf hc, h.nextOf hp]
    exact lookup_insert_congr _ _ (lookup_insert_congr _ _ (h.routes k))
  · unfold link
    rw [h.nextOf hc, h.nextOf hp]
    exact lookup_insert_congr _ _ (lookup_insert_congr _ _ (h.counters d hd))

theorem alike_declare (h : Alike x r r') (hx : Unserved x r') {c : ConnectionId} (hc : c ≠ x)
    (service : Uuid) :
    (r.handleDeclareInterest c service).1 = (r'.handleDeclareInterest c service).1 ∧
      Alike x (r.handleDeclareInterest c service).2 (r'.handleDeclareInterest c service).2 := by
  rw [handleDeclareInterest_eq, handleDeclareInterest_eq, h.provider]
  cases hp : r'.provider service with
  | none => exact ⟨rfl, h⟩
  | some p =>
    have hpx := hx.provider_ne hp
    dsimp only
    rw [h.nextOf hc, h.nextOf hpx]
    split
    · exact ⟨rfl, h⟩
    split
    · exact ⟨rfl, h.providers, h.routes,
        fun d hd => lookup_insert_congr _ _ (h.counters d hd), h.writers⟩
    split
    · exact ⟨rfl, h.providers, h.routes,
        fun d hd => lookup_insert_congr _ _ (lookup_insert_congr _ _ (h.counters d hd)), h.writers⟩
    · exact ⟨rfl, alike_link h hc hpx⟩

theorem alike_declined (h : Alike x r r') {service : Uuid} {reason : DeclineReason}
    (hdeclined : (r.handleDeclareInterest x service).1 = .error reason) :
    Alike x (r.handleDeclareInterest x service).2 r' := by
  obtain ⟨_, he⟩ | ⟨-, he⟩ | ⟨p, -, hne, -, ⟨hp, he⟩ | ⟨-, he⟩⟩ :=
    handleDeclareInterest_cases x service r <;> rw [he] at hdeclined ⊢
  · exact h
  · refine ⟨h.providers, h.routes, fun d hd => ?_, h.writers⟩
    rw [lookup_insert, if_neg hd]
    exact h.counters d hd
  · refine ⟨h.providers, h.routes, fun d hd => ?_, h.writers⟩
    rw [lookup_insert]
    split
    · next hdp =>
      subst hdp
      rw [← h.counters d hd]
      exact (lookup_of_exhausted hp).symm
    · rw [lookup_insert, if_neg hd]
      exact h.counters d hd
  · cases hdeclined

theorem alike_revoke (h : Alike x r r') (c : ConnectionId) (n : UInt16) :
    Alike x (r.revoke c n).2 (r'.revoke c n).2 := by
  unfold revoke
  rw [h.routes]
  cases r'.routingTable.lookup (c, n) with
  | none => exact h
  | some route =>
    exact ⟨h.providers, fun k => lookup_erase_congr _ (lookup_erase_congr _ (h.routes k)),
      h.counters, h.writers⟩

theorem alike_connect (h : Alike x r r') (c : ConnectionId) (provides : List Uuid) :
    Alike x (r.connect c provides) (r'.connect c provides) := by
  refine ⟨fun u => ?_, h.routes, fun d hd => lookup_insert_congr _ _ (h.counters d hd),
    fun d hd => ?_⟩
  · show (provides.foldl (pushProvider c) r.providerIndex).lookup u =
      (provides.foldl (pushProvider c) r'.providerIndex).lookup u
    have hindex := h.providers
    generalize r.providerIndex = index at hindex
    generalize r'.providerIndex = index' at hindex
    induction provides generalizing index index' with
    | nil => exact hindex u
    | cons service provides ih =>
      refine ih _ _ (fun u => ?_)
      rw [pushProvider, pushProvider, hindex service]
      exact lookup_insert_congr _ _ (hindex u)
  · exact (AList.mem_insert _).trans (Iff.trans (or_congr_right (h.writers d hd))
      (AList.mem_insert _).symm)

theorem alike_join (h : Alike x r r') : Alike x (r.connect x []) r' := by
  refine ⟨h.providers, h.routes, fun d hd => ?_, fun d hd => ?_⟩
  · exact (lookup_insert _ _ _ _).trans ((if_neg hd).trans (h.counters d hd))
  · exact (AList.mem_insert _).trans ((or_iff_right hd).trans (h.writers d hd))

theorem alike_remove (h : Alike x r r') (hs : Symmetric r) (hs' : Symmetric r')
    (hstocked : Stocked r.providerIndex) (hstocked' : Stocked r'.providerIndex)
    (order order' : Order Endpoint) (c : ConnectionId) :
    (r.removeConnection order c).1.Perm (r'.removeConnection order' c).1 ∧
      Alike x (r.removeConnection order c).2 (r'.removeConnection order' c).2 := by
  refine ⟨?_, fun u => ?_, fun k => ?_, fun d hd => lookup_erase_congr _ (h.counters d hd),
    fun d hd => ?_⟩
  · rw [(removeConnection_spec hs order c).1, (removeConnection_spec hs' order' c).1]
    have hkeys : r.routingTable.keys.Perm r'.routingTable.keys := by
      refine (List.perm_ext_iff_of_nodup r.routingTable.keys_nodup
        r'.routingTable.keys_nodup).mpr (fun k => ?_)
      rw [← AList.mem_keys, ← AList.mem_keys, mem_iff_lookup, mem_iff_lookup, h.routes]
    have haffected : (r.affectedKeys order c).Perm (r'.affectedKeys order' c) :=
      (((order.perm _).trans hkeys).trans (order'.perm _).symm).filter _
    unfold farEnds
    simp only [h.routes]
    exact haffected.filterMap _
  · refine lookup_of_indexed (stocked_retainProviders hstocked' _)
      (stocked_retainProviders hstocked _) ?_
    rw [indexed_removed, indexed_removed, indexed, indexed, h.providers]
  · refine Option.ext (fun route => ?_)
    rw [lookup_removeConnection hs, lookup_removeConnection hs', h.routes]
  · exact AList.mem_erase.trans ((and_congr_right' (h.writers d hd)).trans AList.mem_erase.symm)

theorem alike_leave (h : Alike x r r') (hs : Symmetric r) (hx : Unserved x r)
    (hstocked : Stocked r.providerIndex) (hstocked' : Stocked r'.providerIndex)
    (order : Order Endpoint) : Alike x (r.removeConnection order x).2 r' := by
  refine ⟨fun u => ?_, fun k => ?_, fun d hd => ?_, fun d hd => ?_⟩
  · refine lookup_of_indexed hstocked' (stocked_retainProviders hstocked _) ?_
    rw [indexed_kept hx.providers, indexed, h.providers]
    rfl
  · rw [← h.routes]
    refine Option.ext (fun route => ?_)
    rw [lookup_removeConnection hs]
    exact and_iff_left_of_imp (fun hk => by simpa using (hx.routes k route hk).2)
  · exact (lookup_erase _ _ _).trans ((if_neg hd).trans (h.counters d hd))
  · exact AList.mem_erase.trans ((and_iff_right hd).trans (h.writers d hd))

end Routing

section Frames

variable (pc : Postcard) {x : ConnectionId} {r r' : RoutingState}

def SameNotices (x : ConnectionId) (ms ns : List (ConnectionId × ControlMessage)) : Prop :=
  ∀ d, d ≠ x → (ms.filter (fun m => m.1 = d)).Perm (ns.filter (fun m => m.1 = d))

/-- Every connection but `x` is sent the same frames, in whatever order. -/
def SameFrames (x : ConnectionId) (fs gs : List Outbound) : Prop :=
  ∀ d, d ≠ x → (fs.filter (fun f => f.conn = d)).Perm (gs.filter (fun f => f.conn = d))

theorem SameNotices.refl (ms : List (ConnectionId × ControlMessage)) : SameNotices x ms ms :=
  fun _ _ => List.Perm.refl _

theorem SameNotices.append {ms ns ms' ns' : List (ConnectionId × ControlMessage)}
    (h : SameNotices x ms ns) (h' : SameNotices x ms' ns') :
    SameNotices x (ms ++ ms') (ns ++ ns') := by
  intro d hd
  rw [List.filter_append, List.filter_append]
  exact (h d hd).append (h' d hd)

theorem filter_tell (msgs : List (ConnectionId × ControlMessage)) (d : ConnectionId) :
    (tell pc r msgs).filter (fun f => f.conn = d) = tell pc r (msgs.filter (fun m => m.1 = d)) := by
  unfold ServerFrame.tell
  rw [List.filter_filterMap, List.filterMap_filter]
  refine List.filterMap_congr (fun m _ => ?_)
  by_cases hw : m.1 ∈ r.writers
  · rw [if_pos hw]
    cases pc.controlToAllocvec m.2 <;> by_cases hd : m.1 = d <;> simp [hd, Option.filter]
  · simp [hw]

theorem sameFrames_tell (h : Alike x r r') {ms ns : List (ConnectionId × ControlMessage)}
    (hsame : SameNotices x ms ns) : SameFrames x (tell pc r ms) (tell pc r' ns) := by
  intro d hd
  rw [filter_tell, filter_tell]
  have hwriters : tell pc r (ms.filter (fun m => m.1 = d)) =
      tell pc r' (ms.filter (fun m => m.1 = d)) := by
    refine tell_congr pc (fun m hm => ?_)
    have hto : m.1 = d := by simpa using (List.mem_filter.mp hm).2
    rw [hto]
    exact h.writers d hd
  rw [hwriters]
  exact (hsame d hd).filterMap _

theorem alike_forwarded (h : Alike x r r') (hx : Unserved x r') (hs : Symmetric r')
    (c : ConnectionId) (service : UInt16) (payload : Bytes) :
    forwarded r c service payload = forwarded r' c service payload := by
  unfold forwarded
  rw [h.routes]
  cases hroute : r'.routingTable.lookup (c, service) with
  | none => rfl
  | some route =>
    dsimp only
    have hpeer := (hx.routes _ route (peer_peer hs hroute).1).1
    simp only [h.writers _ hpeer]

theorem nodup_watcherNotices (order : HashOrder) (s : ServerState) (conn : ConnectionId) :
    (watcherNotices order s conn).Nodup := by
  unfold watcherNotices
  split
  · next watchers addr _ _ =>
    refine (order.conns.nodup_arrange watchers.keys_nodup).map ?_
    intro w w' he
    exact (Prod.mk.inj he).1
  · exact List.nodup_nil

theorem mem_watcherNotices (order : HashOrder) (s : ServerState) (conn w : ConnectionId)
    (msg : ControlMessage) :
    (w, msg) ∈ watcherNotices order s conn ↔ Listed s.watchTable conn w ∧
      ∃ addr, s.connAddresses.lookup conn = some addr ∧ msg = .paneExited addr .disconnected := by
  unfold watcherNotices Listed
  cases s.watchTable.lookup conn with
  | none => simp
  | some watchers =>
    cases s.connAddresses.lookup conn with
    | none => simp
    | some addr => simp [AList.mem_keys, eq_comm]

end Frames

/-- The tables of watches of two states differ in what is about `x` only, and nobody
else watches `x`. -/
structure Unwatched (x : ConnectionId) (g g' : Registry) : Prop where
  addresses : ∀ d, d ≠ x → g.connAddresses.lookup d = g'.connAddresses.lookup d
  watched : ∀ c w, c ≠ x → w ≠ x → (Listed g.watchTable c w ↔ Listed g'.watchTable c w)
  aloof : ∀ w, Listed g.watchTable x w → w = x

section Watching

variable {x : ConnectionId} {g g' g₁ g₁' : Registry}

theorem unwatched_join (h : Unwatched x g g') (conn : ConnectionId) (address : Address) :
    Unwatched x { g with connAddresses := g.connAddresses.insert conn address }
      { g' with connAddresses := g'.connAddresses.insert conn address } :=
  ⟨fun d hd => lookup_insert_congr _ _ (h.addresses d hd), h.watched, h.aloof⟩

theorem unwatched_own_join (h : Unwatched x g g') (address : Address) :
    Unwatched x { g with connAddresses := g.connAddresses.insert x address } g' :=
  ⟨fun d hd => (lookup_insert _ _ _ _).trans ((if_neg hd).trans (h.addresses d hd)), h.watched,
    h.aloof⟩

theorem unwatched_leave (h : Unwatched x g g') {conn : ConnectionId} (hg : Removes conn g g₁)
    (hg' : Removes conn g' g₁') : Unwatched x g₁ g₁' := by
  refine ⟨fun d hd => ?_, fun c w hc hw => ?_, fun w hw => h.aloof w ((hg.watched x w).mp hw).1⟩
  · rw [hg.addresses, hg'.addresses]
    exact lookup_erase_congr _ (h.addresses d hd)
  · rw [hg.watched, hg'.watched, h.watched c w hc hw]

theorem unwatched_own_leave (h : Unwatched x g g') (hg : Removes x g g₁) : Unwatched x g₁ g' := by
  refine ⟨fun d hd => ?_, fun c w hc hw => ?_, fun w hw => h.aloof w ((hg.watched x w).mp hw).1⟩
  · rw [hg.addresses, lookup_erase, if_neg hd]
    exact h.addresses d hd
  · rw [hg.watched, h.watched c w hc hw]
    exact and_iff_left ⟨hc, hw⟩

theorem unwatched_watch (h : Unwatched x g g') {conn target : ConnectionId} (ht : target ≠ x) :
    Unwatched x
      { g with
        watchTable := addMember target conn g.watchTable
        watcherReverse := addMember conn target g.watcherReverse }
      { g' with
        watchTable := addMember target conn g'.watchTable
        watcherReverse := addMember conn target g'.watcherReverse } := by
  refine ⟨h.addresses, fun c w hc hw => ?_, fun w hw => ?_⟩
  · rw [listed_addMember, listed_addMember, h.watched c w hc hw]
  · obtain ⟨he, -⟩ | hw := listed_addMember.mp hw
    · exact absurd he.symm ht
    · exact h.aloof w hw

theorem unwatched_unwatch (h : Unwatched x g g') (conn target : ConnectionId) :
    Unwatched x
      { g with
        watchTable := dropMember target conn g.watchTable
        watcherReverse := dropMember conn target g.watcherReverse }
      { g' with
        watchTable := dropMember target conn g'.watchTable
        watcherReverse := dropMember conn target g'.watcherReverse } := by
  refine ⟨h.addresses, fun c w hc hw => ?_, fun w hw => h.aloof w (listed_dropMember.mp hw).1⟩
  rw [listed_dropMember, listed_dropMember, h.watched c w hc hw]

theorem unwatched_own_watch (h : Unwatched x g g') (target : ConnectionId) :
    Unwatched x
      { g with
        watchTable := addMember target x g.watchTable
        watcherReverse := addMember x target g.watcherReverse } g' := by
  refine ⟨h.addresses, fun c w hc hw => ?_, fun w hw => ?_⟩
  · rw [listed_addMember, ← h.watched c w hc hw]
    exact or_iff_right (fun he => hw he.2)
  · obtain ⟨-, he⟩ | hw := listed_addMember.mp hw
    · exact he
    · exact h.aloof w hw

theorem unwatched_own_unwatch (h : Unwatched x g g') (target : ConnectionId) :
    Unwatched x
      { g with
        watchTable := dropMember target x g.watchTable
        watcherReverse := dropMember x target g.watcherReverse } g' := by
  refine ⟨h.addresses, fun c w hc hw => ?_, fun w hw => h.aloof w (listed_dropMember.mp hw).1⟩
  rw [listed_dropMember, ← h.watched c w hc hw]
  exact and_iff_left (fun he => hw he.2)

end Watching

structure Aligned (x : ConnectionId) (known : List ConnectionId) (s s' : ServerState) : Prop where
  settled : Settled known s
  settled' : Settled (without x known) s'
  routing : Alike x s.toRoutingState s'.toRoutingState
  watches : Unwatched x (registry s) (registry s')

section Steps

variable {pc : Postcard} (accepts accepts' : Nat → Bool) {x : ConnectionId}
  {known : List ConnectionId} {s s' : ServerState}

theorem Aligned.absent (h : Aligned x known s s') : Absent x s' :=
  h.settled'.absent (fun hmem => (mem_without.mp hmem).2 rfl)

theorem Aligned.unserved (h : Aligned x known s s') : Unserved x s'.toRoutingState :=
  ⟨h.absent.providers, h.absent.routes⟩

theorem Aligned.resolveConn (h : Aligned x known s s') (order order' : HashOrder)
    {target : Address} (ht : target ≠ Address.local x.id) :
    s.resolveConn order target = s'.resolveConn order' target ∧
      s.resolveConn order target ≠ some x := by
  have hx : s.connAddresses.lookup x ≠ some target :=
    fun he => ht (h.settled.books.address x target he)
  have hx' : s'.connAddresses.lookup x ≠ some target :=
    fun he => h.absent.address (mem_of_lookup he)
  refine ⟨Option.ext (fun c => ?_), fun he => ?_⟩
  · rw [resolveConn_eq_some h.settled.books, resolveConn_eq_some h.settled'.books]
    by_cases hc : c = x
    · subst hc
      exact iff_of_false hx hx'
    · rw [show s.connAddresses.lookup c = s'.connAddresses.lookup c from h.watches.addresses c hc]
  · exact hx ((resolveConn_eq_some h.settled.books order target x).mp he)

theorem aligned_control (h : Aligned x known s s') (order order' : HashOrder)
    {conn : ConnectionId} (hconn : conn ≠ x) {payload : Bytes}
    (htarget : ∀ target, pc.controlFromBytes payload = some (.watch target) ∨
      pc.controlFromBytes payload = some (.unwatch target) → target ≠ Address.local x.id) :
    Alike x (s.processControl pc accepts order conn payload).toRoutingState
      (s'.processControl pc accepts' order' conn payload).toRoutingState ∧
    Unwatched x (registry (s.processControl pc accepts order conn payload))
      (registry (s'.processControl pc accepts' order' conn payload)) ∧
    controlNotices pc order s conn payload = controlNotices pc order' s' conn payload := by
  unfold processControl controlNotices
  cases hmsg : pc.controlFromBytes payload with
  | none => exact ⟨h.routing, h.watches, rfl⟩
  | some msg =>
    cases msg with
    | declareInterest service version =>
      obtain ⟨hanswer, halike⟩ := alike_declare h.routing h.unserved hconn service
      dsimp only
      rw [toRoutingState_declareInterest, toRoutingState_declareInterest, registry_declareInterest,
        registry_declareInterest]
      exact ⟨halike, h.watches, by rw [declareNotices, declareNotices, hanswer]⟩
    | revokeInterest sessionId =>
      dsimp only
      rw [toRoutingState_revokeInterest, toRoutingState_revokeInterest, registry_revokeInterest,
        registry_revokeInterest]
      exact ⟨alike_revoke h.routing conn sessionId, h.watches, by
        rw [revokeNotices, revokeNotices, h.routing.routes]⟩
    | watch target =>
      obtain ⟨hsame, hne⟩ := h.resolveConn order order' (htarget target (.inl hmsg))
      dsimp only
      rw [toRoutingState_watch, toRoutingState_watch, watchNotices, watchNotices, hsame]
      refine ⟨h.routing, ?_, rfl⟩
      rw [hsame] at hne
      unfold watch
      rw [hsame]
      cases hr : s'.resolveConn order' target with
      | none =>
        dsimp only
        rw [registry_enqueueControl, registry_enqueueControl]
        exact h.watches
      | some targetConn =>
        rw [hr] at hne
        exact unwatched_watch h.watches (fun he => hne (congrArg some he))
    | unwatch target =>
      obtain ⟨hsame, -⟩ := h.resolveConn order order' (htarget target (.inr hmsg))
      dsimp only
      rw [toRoutingState_unwatch, toRoutingState_unwatch]
      refine ⟨h.routing, ?_, rfl⟩
      unfold unwatch
      rw [hsame]
      cases s'.resolveConn order' target with
      | none => exact h.watches
      | some targetConn => exact unwatched_unwatch h.watches conn targetConn
    | _ => exact ⟨h.routing, h.watches, rfl⟩

theorem aligned_disconnectNotices (h : Aligned x known s s') (order order' : HashOrder)
    {conn : ConnectionId} (hconn : conn ≠ x) :
    SameNotices x (disconnectNotices order s conn) (disconnectNotices order' s' conn) := by
  have hpeers := (alike_remove h.routing h.settled.sound.symmetric h.settled'.sound.symmetric
    h.settled.stocked h.settled'.stocked order.routes order'.routes conn).1
  refine SameNotices.append (fun d hd => ?_) (fun d hd => (hpeers.map _).filter _)
  refine (List.perm_ext_iff_of_nodup ((nodup_watcherNotices order s conn).filter _)
    ((nodup_watcherNotices order' s' conn).filter _)).mpr (fun m => ?_)
  obtain ⟨w, msg⟩ := m
  rw [List.mem_filter, List.mem_filter, mem_watcherNotices, mem_watcherNotices, decide_eq_true_iff]
  refine and_congr_left (fun he => ?_)
  obtain rfl : w = d := he
  rw [show s.connAddresses.lookup conn = s'.connAddresses.lookup conn from
    h.watches.addresses conn hconn]
  exact and_congr_left' (h.watches.watched conn w hconn hd)

theorem aligned_effects (hpc : pc.ControlRoundTrip) (h : Aligned x known s s')
    (order order' : HashOrder) {event : ServerEvent} (hother : subject event ≠ x)
    (htarget : ∀ conn target, controlOf pc (.event order event) = some (conn, .watch target) ∨
      controlOf pc (.event order event) = some (conn, .unwatch target) →
        target ≠ Address.local x.id) :
    Alike x (exec pc accepts s (.event order event)).toRoutingState
      (exec pc accepts' s' (.event order' event)).toRoutingState ∧
    Unwatched x (registry (exec pc accepts s (.event order event)))
      (registry (exec pc accepts' s' (.event order' event))) ∧
    SameFrames x (offers pc s (.event order event)) (offers pc s' (.event order' event)) := by
  cases event with
  | newConnection conn hello =>
    exact ⟨alike_connect h.routing conn hello.provides, unwatched_join h.watches conn _,
      fun _ _ => List.Perm.refl _⟩
  | disconnected conn =>
    refine ⟨?_, ?_, ?_⟩
    · simp only [exec, processEvent]
      rw [toRoutingState_processDisconnect, toRoutingState_processDisconnect]
      exact (alike_remove h.routing h.settled.sound.symmetric h.settled'.sound.symmetric
        h.settled.stocked h.settled'.stocked order.routes order'.routes conn).2
    · exact unwatched_leave h.watches
        (removes_processDisconnect accepts order hpc h.settled.books conn)
        (removes_processDisconnect accepts' order' hpc h.settled'.books conn)
    · have hsame := aligned_disconnectNotices h order order' (show conn ≠ x from hother)
      simpa only [offers, notices, forwards, List.append_nil] using
        sameFrames_tell pc h.routing hsame
  | frame conn service payload =>
    simp only [exec, processEvent, processFrame, offers, notices, forwards]
    by_cases hservice : service = 0
    · rw [if_pos hservice, if_pos hservice, if_pos hservice, if_pos hservice, if_pos hservice,
        if_pos hservice, List.append_nil, List.append_nil]
      have hpayload : ∀ target, pc.controlFromBytes payload = some (.watch target) ∨
          pc.controlFromBytes payload = some (.unwatch target) → target ≠ Address.local x.id := by
        intro target hmsg
        refine htarget conn target (hmsg.imp (fun he => ?_) (fun he => ?_)) <;>
          rw [controlOf, if_pos hservice, he, Option.map_some]
      obtain ⟨hrouting, hwatches, hnotices⟩ :=
        aligned_control accepts accepts' h order order' (show conn ≠ x from hother) hpayload
      refine ⟨hrouting, hwatches, ?_⟩
      rw [hnotices]
      exact sameFrames_tell pc h.routing (SameNotices.refl _)
    · rw [if_neg hservice, if_neg hservice, if_neg hservice, if_neg hservice, if_neg hservice,
        if_neg hservice, toRoutingState_processService, toRoutingState_processService,
        registry_processService, registry_processService,
        alike_forwarded h.routing h.unserved h.settled'.sound.symmetric]
      exact ⟨h.routing, h.watches, fun _ _ => List.Perm.refl _⟩

theorem aligned_event (hpc : pc.ControlRoundTrip) (h : Aligned x known s s')
    (order order' : HashOrder) {event : ServerEvent}
    (hallowed : (Call.event order event).Allowed known) (hother : subject event ≠ x)
    (htarget : ∀ conn target, controlOf pc (.event order event) = some (conn, .watch target) ∨
      controlOf pc (.event order event) = some (conn, .unwatch target) →
        target ≠ Address.local x.id) :
    Aligned x ((Call.event order event).opens known)
      (exec pc accepts s (.event order event)) (exec pc accepts' s' (.event order' event)) ∧
    SameFrames x (offers pc s (.event order event)) (offers pc s' (.event order' event)) := by
  have hsettled := settled_exec accepts hpc h.settled hallowed
  have hevent : ∀ o e, Call.event order' event = .event o e → subject e ≠ x := by
    rintro o e ⟨⟩
    exact hother
  have hallowed' : (Call.event order' event).Allowed (without x known) := by
    refine allowed_without ?_ hevent
    cases event <;> exact hallowed
  have hsettled' := settled_exec accepts' hpc h.settled' hallowed'
  rw [opens_without hevent] at hsettled'
  have hopens : (Call.event order' event).opens known = (Call.event order event).opens known := by
    cases event <;> rfl
  rw [hopens] at hsettled'
  obtain ⟨hrouting, hwatches, hframes⟩ :=
    aligned_effects accepts accepts' hpc h order order' hother htarget
  exact ⟨⟨hsettled, hsettled', hrouting, hwatches⟩, hframes⟩

theorem aligned_own_control (h : Aligned x known s s') (order : HashOrder) {payload : Bytes}
    (hdeclined : ∀ service version,
      pc.controlFromBytes payload = some (.declareInterest service version) →
        ∃ reason, (s.handleDeclareInterest x service).1 = .error reason) :
    Alike x (s.processControl pc accepts order x payload).toRoutingState s'.toRoutingState ∧
    Unwatched x (registry (s.processControl pc accepts order x payload)) (registry s') := by
  unfold processControl
  cases hmsg : pc.controlFromBytes payload with
  | none => exact ⟨h.routing, h.watches⟩
  | some msg =>
    cases msg with
    | declareInterest service version =>
      obtain ⟨reason, hreason⟩ := hdeclined service version hmsg
      dsimp only
      rw [toRoutingState_declareInterest, registry_declareInterest]
      exact ⟨alike_declined h.routing hreason, h.watches⟩
    | revokeInterest sessionId =>
      dsimp only
      rw [toRoutingState_revokeInterest, registry_revokeInterest,
        revoke_none ((h.unserved.alike h.routing).no_route sessionId)]
      exact ⟨h.routing, h.watches⟩
    | watch target =>
      dsimp only
      rw [toRoutingState_watch]
      refine ⟨h.routing, ?_⟩
      unfold watch
      cases s.resolveConn order target with
      | none =>
        dsimp only
        rw [registry_enqueueControl]
        exact h.watches
      | some targetConn => exact unwatched_own_watch h.watches targetConn
    | unwatch target =>
      dsimp only
      rw [toRoutingState_unwatch]
      refine ⟨h.routing, ?_⟩
      unfold unwatch
      cases s.resolveConn order target with
      | none => exact h.watches
      | some targetConn => exact unwatched_own_unwatch h.watches targetConn
    | _ => exact ⟨h.routing, h.watches⟩

theorem aligned_own (hpc : pc.ControlRoundTrip) (h : Aligned x known s s') (order : HashOrder)
    {event : ServerEvent} (hallowed : (Call.event order event).Allowed known)
    (hown : subject event = x)
    (hprovides : ∀ hello, event = .newConnection x hello → hello.provides = [])
    (hdeclined : ∀ service version,
      controlOf pc (.event order event) = some (x, .declareInterest service version) →
        ∃ reason, (s.handleDeclareInterest x service).1 = .error reason) :
    Aligned x ((Call.event order event).opens known) (exec pc accepts s (.event order event)) s' := by
  have hsettled := settled_exec accepts hpc h.settled hallowed
  cases event with
  | newConnection conn hello =>
    obtain rfl : conn = x := hown
    refine ⟨hsettled, ?_, ?_, unwatched_own_join h.watches _⟩
    · have hsame : without conn (conn :: known) = without conn known := by simp [without]
      rw [Call.opens, hsame]
      exact h.settled'
    · have hjoin := alike_join h.routing
      rw [← hprovides hello rfl] at hjoin
      exact hjoin
  | disconnected conn =>
    obtain rfl : conn = x := hown
    refine ⟨hsettled, h.settled', ?_, ?_⟩
    · simp only [exec, processEvent]
      rw [toRoutingState_processDisconnect]
      exact alike_leave h.routing h.settled.sound.symmetric (h.unserved.alike h.routing)
        h.settled.stocked h.settled'.stocked order.routes
    · exact unwatched_own_leave h.watches
        (removes_processDisconnect accepts order hpc h.settled.books conn)
  | frame conn service payload =>
    obtain rfl : conn = x := hown
    suffices hboth : Alike conn (s.processFrame pc accepts order conn service payload).toRoutingState
        s'.toRoutingState ∧ Unwatched conn
          (registry (s.processFrame pc accepts order conn service payload)) (registry s') from
      ⟨hsettled, h.settled', hboth.1, hboth.2⟩
    unfold processFrame
    split
    · next hservice =>
      refine aligned_own_control accepts h order (fun u version hmsg => hdeclined u version ?_)
      rw [controlOf, if_pos hservice, hmsg, Option.map_some]
    · rw [toRoutingState_processService, registry_processService]
      exact ⟨h.routing, h.watches⟩

end Steps

def sent (pc : Postcard) (accepts : Nat → Bool) (p : ServerState × Call) : List Outbound :=
  (exec pc accepts p.1 p.2).offered.drop p.1.offered.length

theorem sent_eq (pc : Postcard) (accepts : Nat → Bool) {s : ServerState}
    (hs : Symmetric s.toRoutingState) (c : Call) : sent pc accepts (s, c) = offers pc s c := by
  unfold sent
  rw [offered_exec pc accepts hs]
  exact List.drop_left

def isOwn (x : ConnectionId) : Call → Bool
  | .event _ event => subject event = x
  | _ => false

/-- What keeps `x` apart from the others: it offers nothing, it gets no session, and
nobody else asks for it. -/
structure Aside (pc : Postcard) (x : ConnectionId) (p : ServerState × Call) : Prop where
  provides : ∀ order hello, p.2 = .event order (.newConnection x hello) → hello.provides = []
  declined : ∀ service version, controlOf pc p.2 = some (x, .declareInterest service version) →
    ∃ reason, (p.1.handleDeclareInterest x service).1 = .error reason
  unnamed : ∀ conn target, conn ≠ x → controlOf pc p.2 = some (conn, .watch target) ∨
    controlOf pc p.2 = some (conn, .unwatch target) → target ≠ Address.local x.id

def keepsAside (pc : Postcard) (x : ConnectionId) (p : ServerState × Call) : Bool :=
  (match p.2 with
    | .event _ (.newConnection conn hello) => conn ≠ x || hello.provides = []
    | _ => true) &&
  match controlOf pc p.2 with
  | some (conn, .declareInterest service _) =>
    conn ≠ x || (p.1.handleDeclareInterest x service).1.toOption.isNone
  | some (conn, .watch target) => conn = x || target ≠ Address.local x.id
  | some (conn, .unwatch target) => conn = x || target ≠ Address.local x.id
  | _ => true

theorem aside_of_keepsAside {pc : Postcard} {x : ConnectionId} {p : ServerState × Call}
    (h : keepsAside pc x p = true) : Aside pc x p := by
  obtain ⟨hjoin, hmsg⟩ := Bool.and_eq_true_iff.mp h
  refine ⟨fun order hello hc => ?_, fun service version hc => ?_, fun conn target hne hc => ?_⟩
  · rw [hc] at hjoin
    simpa using hjoin
  · rw [hc] at hmsg
    cases hanswer : (p.1.handleDeclareInterest x service).1 with
    | error reason => exact ⟨reason, rfl⟩
    | ok accepted => simp [hanswer, Except.toOption] at hmsg
  · obtain hc | hc := hc <;> rw [hc] at hmsg <;> simpa [hne] using hmsg

/-- The tables of two states are the same apart from what is about `x`. -/
structure Unnoticed (x : ConnectionId) (s s' : ServerState) : Prop where
  providers : ∀ u, s.providerIndex.lookup u = s'.providerIndex.lookup u
  routes : ∀ k, s.routingTable.lookup k = s'.routingTable.lookup k
  counters : ∀ d, d ≠ x → s.nextSession.lookup d = s'.nextSession.lookup d
  writers : ∀ d, d ≠ x → (d ∈ s.writers ↔ d ∈ s'.writers)
  addresses : ∀ d, d ≠ x → s.connAddresses.lookup d = s'.connAddresses.lookup d
  watched : ∀ c w, c ≠ x → w ≠ x → (Listed s.watchTable c w ↔ Listed s'.watchTable c w)
  watchers : ∀ w c, w ≠ x → c ≠ x → (Listed s.watcherReverse w c ↔ Listed s'.watcherReverse w c)

section Runs

variable {pc : Postcard} (accepts accepts' : Nat → Bool) {x : ConnectionId}
  {known : List ConnectionId} {s s' : ServerState}

theorem aligned_new (x : ConnectionId) : Aligned x [] Server.new Server.new := by
  refine ⟨settled_new, settled_new, ?_, ?_⟩
  · exact ⟨fun _ => rfl, fun _ => rfl, fun _ _ => rfl, fun _ _ => Iff.rfl⟩
  · refine ⟨fun _ _ => rfl, fun _ _ _ _ => Iff.rfl, ?_⟩
    rintro w ⟨set, hset, -⟩
    cases hset

theorem Aligned.unnoticed (h : Aligned x known s s') : Unnoticed x s s' := by
  refine ⟨h.routing.providers, h.routing.routes, h.routing.counters, h.routing.writers,
    h.watches.addresses, h.watches.watched, fun w c hw hc => ?_⟩
  have hmirrored := h.settled.books.mirrored c w
  have hmirrored' := h.settled'.books.mirrored c w
  exact hmirrored.symm.trans ((h.watches.watched c w hc hw).trans hmirrored')

theorem Aside.unnamed_by_others {order : HashOrder} {event : ServerEvent}
    (h : Aside pc x (s, .event order event)) (hother : subject event ≠ x) (conn : ConnectionId)
    (target : Address) (hmsg : controlOf pc (.event order event) = some (conn, .watch target) ∨
      controlOf pc (.event order event) = some (conn, .unwatch target)) :
    target ≠ Address.local x.id := by
  have hsender : ∀ msg, controlOf pc (.event order event) = some (conn, msg) → conn ≠ x := by
    intro msg he
    obtain ⟨order, payload, hevent, -⟩ := controlOf_eq_some he
    rw [(Call.event.inj hevent).2] at hother
    exact hother
  refine h.unnamed conn target ?_ hmsg
  obtain hmsg | hmsg := hmsg <;> exact hsender _ hmsg

theorem aligned_run (hpc : pc.ControlRoundTrip) {inputs inputs' : List Input}
    (hevents : inputs'.map Input.event =
      (inputs.map Input.event).filter (fun event => subject event ≠ x))
    (hlegal : Legal known (calls inputs)) (h : Aligned x known s s')
    (haside : ∀ p ∈ history pc accepts s (calls inputs), Aside pc x p) :
    (∃ known', Aligned x known' (execs pc accepts (calls inputs) s)
      (execs pc accepts' (calls inputs') s')) ∧
    List.Forall₂ (fun p p' => SameFrames x (sent pc accepts p) (sent pc accepts' p'))
      ((history pc accepts s (calls inputs)).filter (fun p => !isOwn x p.2))
      (history pc accepts' s' (calls inputs')) := by
  induction inputs generalizing inputs' known s s' with
  | nil =>
    obtain rfl : inputs' = [] := List.map_eq_nil_iff.mp hevents
    exact ⟨⟨known, h⟩, .nil⟩
  | cons input inputs ih =>
    obtain ⟨hallowed, hrest⟩ := hlegal
    have hfirst := haside _ List.mem_cons_self
    have hlater : ∀ p ∈ history pc accepts (exec pc accepts s (.event input.order input.event))
        (calls inputs), Aside pc x p := fun p hp => haside p (List.mem_cons_of_mem _ hp)
    rw [List.map_cons] at hevents
    by_cases hown : subject input.event = x
    · rw [List.filter_cons_of_neg (by simpa using hown)] at hevents
      have hstep := aligned_own accepts hpc h input.order hallowed hown
        (fun hello he => hfirst.provides input.order hello (congrArg _ he)) hfirst.declined
      have hskip : (history pc accepts s (calls (input :: inputs))).filter (fun p => !isOwn x p.2) =
          (history pc accepts (exec pc accepts s (.event input.order input.event))
            (calls inputs)).filter (fun p => !isOwn x p.2) :=
        List.filter_cons_of_neg (by simp [isOwn, hown])
      rw [hskip]
      exact ih hevents hrest hstep hlater
    · rw [List.filter_cons_of_pos (by simpa using hown)] at hevents
      obtain ⟨input', rest', rfl, hsame, hevents⟩ := List.map_eq_cons_iff.mp hevents
      have hcalls : calls (input' :: rest') = .event input'.order input.event :: calls rest' := by
        rw [← hsame]
        rfl
      have hkeep : (history pc accepts s (calls (input :: inputs))).filter
          (fun p => !isOwn x p.2) = (s, .event input.order input.event) ::
            (history pc accepts (exec pc accepts s (.event input.order input.event))
              (calls inputs)).filter (fun p => !isOwn x p.2) :=
        List.filter_cons_of_pos (by simp [isOwn, hown])
      obtain ⟨hstep, hframes⟩ := aligned_event accepts accepts' hpc h input.order input'.order
        hallowed hown (hfirst.unnamed_by_others hown)
      obtain ⟨haligned, hall⟩ := ih hevents hrest hstep hlater
      rw [hkeep, hcalls]
      refine ⟨haligned, .cons ?_ hall⟩
      rw [sent_eq pc accepts h.settled.sound.symmetric,
        sent_eq pc accepts' h.settled'.sound.symmetric]
      exact hframes

variable (pc) in
/-- Without the events of a connection that offers nothing, gets no session and is asked
for by nobody, each other event sends the same frames to all others, and the tables end
up the same but for the entries of that connection. -/
theorem bystander_unnoticed (hpc : pc.ControlRoundTrip) (x : ConnectionId)
    (inputs inputs' : List Input) (horderly : Orderly [] inputs)
    (hevents : inputs'.map Input.event =
      (inputs.map Input.event).filter (fun event => subject event ≠ x))
    (hquiet : Unrefused (actorLoop pc accepts inputs))
    (hquiet' : Unrefused (actorLoop pc accepts' inputs'))
    (haside : ∀ p ∈ history pc accepts Server.new (runCalls pc accepts Server.new inputs),
      Aside pc x p) :
    Unnoticed x (actorLoop pc accepts inputs) (actorLoop pc accepts' inputs') ∧
    List.Forall₂ (fun p p' => SameFrames x (sent pc accepts p) (sent pc accepts' p'))
      ((history pc accepts Server.new (runCalls pc accepts Server.new inputs)).filter
        (fun p => !isOwn x p.2))
      (history pc accepts' Server.new (runCalls pc accepts' Server.new inputs')) := by
  have hcalls : runCalls pc accepts Server.new inputs = calls inputs := by
    rw [actorLoop_eq] at hquiet
    exact runCalls_of_unrefused (fun _ => rfl) hquiet
  have hcalls' : runCalls pc accepts' Server.new inputs' = calls inputs' := by
    rw [actorLoop_eq] at hquiet'
    exact runCalls_of_unrefused (fun _ => rfl) hquiet'
  have hlegal := legal_runCalls pc accepts Server.new horderly
  rw [hcalls] at hlegal haside
  rw [actorLoop_eq, actorLoop_eq, hcalls, hcalls']
  obtain ⟨⟨known, haligned⟩, hframes⟩ :=
    aligned_run accepts accepts' hpc hevents hlegal (aligned_new x) haside
  exact ⟨haligned.unnoticed, hframes⟩

/-- Connection 3 asks for a service that nobody has, watches connection 1 and itself,
forges a session and sends bytes without a meaning. -/
def bystander : List Input :=
  [⟨.newConnection ⟨3⟩ ⟨[]⟩, .stored⟩] ++ handshake ++
    [⟨.frame ⟨3⟩ 0 (controlMessage.encode (.declareInterest unheardOf 1)), .stored⟩,
      ⟨.frame ⟨3⟩ 0 (controlMessage.encode (.watch (Address.local 1))), .stored⟩,
      ⟨.frame ⟨3⟩ 0 (controlMessage.encode (.watch (Address.local 3))), .stored⟩,
      ⟨.frame ⟨3⟩ 1 [7], .stored⟩, ⟨.frame ⟨3⟩ 0 [255], .stored⟩,
      ⟨.frame ⟨2⟩ 0 (controlMessage.encode (.watch (Address.local 1))), .stored⟩,
      ⟨.disconnected ⟨1⟩, .stored⟩, ⟨.disconnected ⟨3⟩, .stored⟩]

def undisturbed : List Input :=
  handshake ++ [⟨.frame ⟨2⟩ 0 (controlMessage.encode (.watch (Address.local 1))), .stored⟩,
    ⟨.disconnected ⟨1⟩, .stored⟩]

theorem bystander_unnoticed_watcher :
    Orderly [] bystander ∧ Unrefused (actorLoop postcard (fun _ => true) bystander) ∧
    undisturbed.map Input.event =
      (bystander.map Input.event).filter (fun event => subject event ≠ ⟨3⟩) ∧
    Unnoticed ⟨3⟩ (actorLoop postcard (fun _ => true) bystander)
      (actorLoop postcard (fun _ => true) undisturbed) := by
  have horderly : Orderly [] bystander := by simp [bystander, handshake, Orderly]
  have hquiet : Unrefused (actorLoop postcard (fun _ => true) bystander) := by
    unfold Unrefused
    decide +kernel
  have hquiet' : Unrefused (actorLoop postcard (fun _ => true) undisturbed) := by
    unfold Unrefused
    decide +kernel
  have hevents : undisturbed.map Input.event =
      (bystander.map Input.event).filter (fun event => subject event ≠ ⟨3⟩) := rfl
  have hchecked : ∀ p ∈ history postcard (fun _ => true) Server.new
      (runCalls postcard (fun _ => true) Server.new bystander), keepsAside postcard ⟨3⟩ p = true := by
    decide +kernel
  refine ⟨horderly, hquiet, hevents, ?_⟩
  exact (bystander_unnoticed postcard (fun _ => true) (fun _ => true) postcard_control ⟨3⟩ bystander
    undisturbed horderly hevents hquiet hquiet' fun p hp => aside_of_keepsAside (hchecked p hp)).1

end Runs

end Pane.Bystanders
