import Pane.RoutePipes

namespace Pane.TeardownNotices

open Pane.HashTable Pane.Messages Pane.Routing Pane.Server Pane.ServerFrame Pane.ServerActor
open Pane.RouteSymmetry Pane.RouteRemoval Pane.RouteTable Pane.Offers Pane.RoutePipes
open Pane.PostcardFormat

variable (pc : Postcard) (accepts : Nat → Bool)

def reasonFor (session : UInt16) : ControlMessage → Option TeardownReason
  | .serviceTeardown n reason => if n = session then some reason else none
  | _ => none

def noticeFor (k : Endpoint) (m : ConnectionId × ControlMessage) : Option TeardownReason :=
  if m.1 = k.1 then reasonFor k.2 m.2 else none

def noticeIn (k : Endpoint) (f : Outbound) : Option TeardownReason :=
  if f.conn = k.1 ∧ f.service = 0 then (pc.controlFromBytes f.payload).bind (reasonFor k.2) else none

variable {pc} in
theorem of_noticeIn {k : Endpoint} {f : Outbound} {reason : TeardownReason}
    (h : noticeIn pc k f = some reason) : f.conn = k.1 ∧ f.service = 0 ∧
      pc.controlFromBytes f.payload = some (.serviceTeardown k.2 reason) := by
  rw [noticeIn] at h
  split at h
  · next hf =>
    obtain ⟨msg, hmsg, hreason⟩ := Option.bind_eq_some_iff.mp h
    refine ⟨hf.1, hf.2, ?_⟩
    cases msg with
    | serviceTeardown n why =>
      rw [reasonFor] at hreason
      split at hreason
      · next hn =>
        cases hreason
        rw [hmsg, hn]
      · cases hreason
    | _ => cases hreason
  · cases h

def teardowns (s : ServerState) (k : Endpoint) : List TeardownReason :=
  s.offered.filterMap (noticeIn pc k)

variable {pc}

theorem teardowns_exec (hpc : pc.ControlRoundTrip) {s : ServerState}
    (hs : Symmetric s.toRoutingState) (c : Call) (k : Endpoint) :
    teardowns pc (exec pc accepts s c) k =
      teardowns pc s k ++
        if k.1 ∈ s.writers then (notices pc s c).filterMap (noticeFor k) else [] :=
  heard_exec accepts k.1 (reasonFor k.2) hpc hs c

def Ends (conn : ConnectionId) (c : Call) : Prop :=
  ∃ order, c = .event order (.disconnected conn) ∨ c = .tearDown order conn

variable (pc) in
def Revokes (k : Endpoint) (c : Call) : Prop :=
  ∃ order payload, c = .event order (.frame k.1 0 payload) ∧
    pc.controlFromBytes payload = some (.revokeInterest k.2)

theorem nodup_farEnds {s : RoutingState} (hs : Symmetric s) (order : Order Endpoint)
    (conn : ConnectionId) : (farEnds s.routingTable conn (s.affectedKeys order conn)).Nodup := by
  have hnd : (s.affectedKeys order conn).Nodup :=
    (order.nodup_arrange s.routingTable.keys_nodup).filter _
  refine List.pairwise_filterMap.mpr (hnd.imp_of_mem ?_)
  intro j k hj hk hne p hp q hq he
  obtain ⟨r, hr, rfl⟩ := Option.map_eq_some_iff.mp hp
  obtain ⟨r', hr', rfl⟩ := Option.map_eq_some_iff.mp hq
  obtain ⟨-, rfl⟩ := (mem_affectedKeys order j).mp hj
  have hk1 := ((mem_affectedKeys order k).mp hk).2
  obtain ⟨hl, hback, -⟩ := peer_peer hs hr
  obtain ⟨hl', hback', -⟩ := peer_peer hs hr'
  rw [hk1] at hl' hback'
  rw [← he] at hl' hback'
  obtain rfl : r = r' := Option.some.inj (hl.symm.trans hl')
  exact hne (hback.symm.trans hback')

theorem noticeFor_teardown (k e : Endpoint) (reason : TeardownReason) :
    noticeFor k (e.1, .serviceTeardown e.2 reason) = if e = k then some reason else none := by
  by_cases h : e = k
  · subst h
    simp [noticeFor, reasonFor]
  · rw [if_neg h, noticeFor]
    split
    · next h1 => rw [reasonFor, if_neg (fun h2 => h (Prod.ext h1 h2))]
    · rfl

theorem filterMap_lostNotices {peers : List Endpoint} (h : peers.Nodup) (k : Endpoint) :
    (lostNotices peers).filterMap (noticeFor k) = if k ∈ peers then [.connectionLost] else [] := by
  induction peers with
  | nil => rfl
  | cons p ps ih =>
    obtain ⟨hp, hps⟩ := List.nodup_cons.mp h
    have hrest := ih hps
    rw [lostNotices, List.map_cons, List.filterMap_cons, noticeFor_teardown]
    by_cases hk : p = k
    · subst hk
      rw [if_neg hp] at hrest
      rw [if_pos rfl, if_pos List.mem_cons_self]
      exact congrArg _ hrest
    · have hmem : k ∈ p :: ps ↔ k ∈ ps := by simp [Ne.symm hk]
      simp only [if_neg hk, hmem]
      exact hrest

theorem filterMap_revokeNotices {s : RoutingState} (hs : Symmetric s) {conn : ConnectionId}
    {n : UInt16} {r : Route} (h : s.routingTable.lookup (conn, n) = some r) (k : Endpoint) :
    (revokeNotices s conn n).filterMap (noticeFor k) =
      if (conn, n) = k ∨ r.peer conn = k then [.serviceRevoked] else [] := by
  have hne : r.peer conn ≠ (conn, n) := fun he => (peer_peer hs h).2.2 (congrArg Prod.fst he)
  have hown := noticeFor_teardown k (conn, n) .serviceRevoked
  have hfar := noticeFor_teardown k (r.peer conn) .serviceRevoked
  simp only [revokeNotices, h, List.filterMap_cons, List.filterMap_nil]
  rw [hfar, hown]
  by_cases hk : r.peer conn = k
  · subst hk
    simp [hne.symm]
  · by_cases hk' : (conn, n) = k <;> simp [hk, hk']

theorem filterMap_watcherNotices (order : HashOrder) (s : ServerState) (conn : ConnectionId)
    (k : Endpoint) : (watcherNotices order s conn).filterMap (noticeFor k) = [] := by
  unfold watcherNotices
  split <;> simp [List.filterMap_map, Function.comp_def, noticeFor, reasonFor]

theorem filterMap_disconnectNotices {s : ServerState} (hs : Symmetric s.toRoutingState)
    (order : HashOrder) (conn : ConnectionId) (k : Endpoint) :
    (disconnectNotices order s conn).filterMap (noticeFor k) =
      if k ∈ farEnds s.routingTable conn (s.affectedKeys order.routes conn)
      then [.connectionLost] else [] := by
  have hpeers := (removeConnection_spec hs order.routes conn).1
  rw [disconnectNotices, List.filterMap_append, filterMap_watcherNotices, List.nil_append, hpeers,
    filterMap_lostNotices (nodup_farEnds hs order.routes conn)]

theorem filterMap_declareNotices (s : RoutingState) (conn : ConnectionId) (service : Uuid)
    (k : Endpoint) : (declareNotices s conn service).filterMap (noticeFor k) = [] := by
  unfold declareNotices
  obtain ⟨_, he⟩ | ⟨-, he⟩ | ⟨p, -, -, -, ⟨-, he⟩ | ⟨-, he⟩⟩ :=
    RoutingState.handleDeclareInterest_cases conn service s <;>
      simp [he, noticeFor, reasonFor]

theorem filterMap_watchNotices (order : HashOrder) (s : ServerState) (conn : ConnectionId)
    (target : Address) (k : Endpoint) :
    (watchNotices order s conn target).filterMap (noticeFor k) = [] := by
  unfold watchNotices
  split <;> simp [noticeFor, reasonFor]

variable (pc) in
/-- What becomes of a route in one call, as seen from one of its ends, and what
this end is told. -/
inductive Fate (s : ServerState) (c : Call) (k : Endpoint) (r : Route) : Prop
  | revoked (h : Revokes pc k c ∨ Revokes pc (r.peer k.1) c)
      (told : (notices pc s c).filterMap (noticeFor k) = [.serviceRevoked])
      (gone : (exec pc accepts s c).routingTable.lookup k = none)
  | lost (h : Ends (r.peer k.1).1 c)
      (told : (notices pc s c).filterMap (noticeFor k) = [.connectionLost])
      (gone : (exec pc accepts s c).routingTable.lookup k = none)
  | ended (h : Ends k.1 c) (told : (notices pc s c).filterMap (noticeFor k) = [])
      (gone : (exec pc accepts s c).routingTable.lookup k = none)
  | kept (told : (notices pc s c).filterMap (noticeFor k) = [])
      (stays : (exec pc accepts s c).routingTable.lookup k = some r)

variable {s : ServerState} {k : Endpoint} {r : Route}

theorem fate_disconnect (hs : Symmetric s.toRoutingState)
    (hk : s.routingTable.lookup k = some r) {order : HashOrder} {conn : ConnectionId} {c : Call}
    (hends : Ends conn c) (hexec : exec pc accepts s c = s.processDisconnect pc accepts order conn)
    (hnotices : notices pc s c = disconnectNotices order s conn) : Fate pc accepts s c k r := by
  have htold := filterMap_disconnectNotices hs order conn k
  have hlookup := lookup_removeConnection hs order.routes conn k
  rw [← hnotices] at htold
  rw [← toRoutingState_processDisconnect pc accepts order s conn, ← hexec] at hlookup
  have hgone : k.1 = conn ∨ (r.peer k.1).1 = conn →
      (exec pc accepts s c).routingTable.lookup k = none := by
    intro h
    cases hl : (exec pc accepts s c).routingTable.lookup k with
    | none => rfl
    | some r' =>
      obtain ⟨hk', hr'⟩ := (hlookup r').mp hl
      obtain rfl : r' = r := Option.some.inj (hk'.symm.trans hk)
      exact absurd ((peer_conn_iff hs hk).mp h) hr'
  have hne := (peer_peer hs hk).2.2
  by_cases hfar : (r.peer k.1).1 = conn
  · have hmem := (mem_farEnds hs order.routes k).mpr ⟨r, hk, hfar⟩
    rw [if_pos hmem] at htold
    exact .lost (hfar ▸ hends) htold (hgone (.inr hfar))
  · have hmem : k ∉ farEnds s.routingTable conn (s.affectedKeys order.routes conn) := by
      intro hm
      obtain ⟨r', hk', hr'⟩ := (mem_farEnds hs order.routes k).mp hm
      obtain rfl : r' = r := Option.some.inj (hk'.symm.trans hk)
      exact hfar hr'
    rw [if_neg hmem] at htold
    by_cases hown : k.1 = conn
    · exact .ended (hown ▸ hends) htold (hgone (.inl hown))
    · refine .kept htold ((hlookup r).mpr ⟨hk, fun h => ?_⟩)
      obtain h | h := (peer_conn_iff hs hk).mpr h
      · exact hown h
      · exact hfar h

theorem lookup_end (hs : Symmetric s.toRoutingState) {j : Endpoint}
    (hj : s.routingTable.lookup j = some r) (h : j = k ∨ r.peer j.1 = k) :
    s.routingTable.lookup k = some r := by
  obtain rfl | rfl := h
  · exact hj
  · exact (peer_peer hs hj).1

theorem fate_revoke (hs : Symmetric s.toRoutingState) (hk : s.routingTable.lookup k = some r)
    {order : HashOrder} {conn : ConnectionId} {payload : Bytes} {n : UInt16}
    (hmsg : pc.controlFromBytes payload = some (.revokeInterest n)) :
    Fate pc accepts s (.event order (.frame conn 0 payload)) k r := by
  have hexec : (exec pc accepts s (.event order (.frame conn 0 payload))).toRoutingState =
      (s.revoke conn n).2 := by
    simp [exec, processEvent, ServerState.processFrame, ServerState.processControl, hmsg]
  have htold : notices pc s (.event order (.frame conn 0 payload)) =
      revokeNotices s.toRoutingState conn n := by simp [notices, controlNotices, hmsg]
  have hrevokes : Revokes pc (conn, n) (.event order (.frame conn 0 payload)) :=
    ⟨order, payload, rfl, hmsg⟩
  cases hl : s.routingTable.lookup (conn, n) with
  | none =>
    refine .kept ?_ ?_
    · simp [htold, revokeNotices, hl]
    · rw [hexec, RoutingState.revoke_none hl, hk]
  | some r₀ =>
    have hfilter := filterMap_revokeNotices hs hl k
    rw [← htold] at hfilter
    obtain ⟨hp, hback, -⟩ := peer_peer hs hl
    by_cases hr : r = r₀
    · subst hr
      have hend : (conn, n) = k ∨ r.peer conn = k := by
        obtain ⟨h1, h2⟩ | ⟨h1, h2⟩ := peer_eq hs hl <;>
          obtain h | h := hs.endpoint k r hk
        · exact .inl (h1.trans h.symm)
        · exact .inr (h2.trans h.symm)
        · exact .inr (h2.trans h.symm)
        · exact .inl (h1.trans h.symm)
      rw [if_pos hend] at hfilter
      refine .revoked ?_ hfilter ?_
      · obtain rfl | rfl := hend
        · exact .inl hrevokes
        · exact .inr (by rwa [hback])
      · rw [hexec]
        cases hg : (s.revoke conn n).2.routingTable.lookup k with
        | none => rfl
        | some r' =>
          obtain ⟨hk', hne⟩ := (lookup_revoke hs hl k r').mp hg
          exact absurd (Option.some.inj (hk'.symm.trans hk)) hne
    · rw [if_neg (fun h => hr (Option.some.inj (hk.symm.trans (lookup_end hs hl h))))] at hfilter
      refine .kept hfilter ?_
      · rw [hexec]
        exact (lookup_revoke hs hl k r).mpr ⟨hk, hr⟩

theorem fate (hs : Symmetric s.toRoutingState) (hk : s.routingTable.lookup k = some r) (c : Call) :
    Fate pc accepts s c k r := by
  cases c with
  | drain => exact .kept rfl hk
  | tearDown order conn => exact fate_disconnect accepts hs hk ⟨order, .inr rfl⟩ rfl rfl
  | event order event =>
    cases event with
    | newConnection conn hello => exact .kept rfl hk
    | disconnected conn => exact fate_disconnect accepts hs hk ⟨order, .inl rfl⟩ rfl rfl
    | frame conn service payload =>
      by_cases hz : service = 0
      · subst hz
        cases hmsg : pc.controlFromBytes payload with
        | none =>
          refine .kept ?_ ?_
          · simp [notices, controlNotices, hmsg]
          · simpa [exec, processEvent, ServerState.processFrame, ServerState.processControl, hmsg]
              using hk
        | some msg =>
          cases msg with
          | revokeInterest n => exact fate_revoke accepts hs hk hmsg
          | declareInterest u v =>
            refine .kept ?_ ?_
            · simp [notices, controlNotices, hmsg, filterMap_declareNotices]
            · simpa [exec, processEvent, ServerState.processFrame, ServerState.processControl, hmsg]
                using lookup_declare hs hk conn u
          | _ =>
            refine .kept ?_ ?_
            · simp [notices, controlNotices, hmsg, filterMap_watchNotices]
            · simpa [exec, processEvent, ServerState.processFrame, ServerState.processControl, hmsg]
                using hk
      · refine .kept ?_ ?_
        · simp [notices, hz]
        · simpa [exec, processEvent, ServerState.processFrame, hz] using hk

theorem told_of_none (hs : Symmetric s.toRoutingState) (hk : s.routingTable.lookup k = none)
    (c : Call) : (notices pc s c).filterMap (noticeFor k) = [] := by
  have hfar : ∀ order conn, k ∉ farEnds s.routingTable conn (s.affectedKeys order conn) := by
    intro order conn hm
    obtain ⟨r, hr, -⟩ := (mem_farEnds hs order k).mp hm
    rw [hk] at hr
    cases hr
  have hdisconnect : ∀ order conn, (disconnectNotices order s conn).filterMap (noticeFor k) = [] := by
    intro order conn
    rw [filterMap_disconnectNotices hs, if_neg (hfar order.routes conn)]
  cases c with
  | drain => rfl
  | tearDown order conn => exact hdisconnect order conn
  | event order event =>
    cases event with
    | newConnection conn hello => rfl
    | disconnected conn => exact hdisconnect order conn
    | frame conn service payload =>
      by_cases hz : service = 0
      · subst hz
        cases hmsg : pc.controlFromBytes payload with
        | none => simp [notices, controlNotices, hmsg]
        | some msg =>
          cases msg with
          | declareInterest u v => simp [notices, controlNotices, hmsg, filterMap_declareNotices]
          | revokeInterest n =>
            have htold : notices pc s (.event order (.frame conn 0 payload)) =
                revokeNotices s.toRoutingState conn n := by simp [notices, controlNotices, hmsg]
            cases hl : s.routingTable.lookup (conn, n) with
            | none => simp [htold, revokeNotices, hl]
            | some r =>
              rw [htold, filterMap_revokeNotices hs hl, if_neg]
              intro h
              have hr := lookup_end hs hl h
              rw [hk] at hr
              cases hr
          | _ => simp [notices, controlNotices, hmsg, filterMap_watchNotices]
      · simp [notices, hz]

variable (pc) in
/-- A session that was sent its notice is out of use for as long as its
connection has a writer: it carries no route and will not be handed out. -/
def Once (known : List ConnectionId) (s : ServerState) : Prop :=
  ∀ k, teardowns pc s k = [] ∨
    (teardowns pc s k).length = 1 ∧ k.1 ∈ known ∧
      (k.1 ∈ s.writers → s.routingTable.lookup k = none ∧ k.2 < s.nextOf k.1)

variable {known : List ConnectionId} {c : Call}

theorem told_of_fate (h : Fate pc accepts s c k r)
    (hne : (notices pc s c).filterMap (noticeFor k) ≠ []) :
    ((notices pc s c).filterMap (noticeFor k)).length = 1 ∧
      (exec pc accepts s c).routingTable.lookup k = none := by
  cases h with
  | revoked _ told gone => exact ⟨by rw [told]; rfl, gone⟩
  | lost _ told gone => exact ⟨by rw [told]; rfl, gone⟩
  | ended _ told _ => exact absurd told hne
  | kept told _ => exact absurd told hne

theorem once_exec (hpc : pc.ControlRoundTrip) (hs : Sound known s.toRoutingState)
    (hc : c.Allowed known) (h : Once pc known s) :
    Once pc (c.opens known) (exec pc accepts s c) := by
  intro k
  have hexec := teardowns_exec accepts hpc hs.symmetric c k
  have hr := exec_reroutes pc accepts s c hc
  obtain hnone | ⟨hlen, hknown, hout⟩ := h k
  · rw [hnone, List.nil_append] at hexec
    by_cases hw : k.1 ∈ s.writers
    · rw [if_pos hw] at hexec
      by_cases hne : (notices pc s c).filterMap (noticeFor k) = []
      · exact .inl (hexec.trans hne)
      · cases hk : s.routingTable.lookup k with
        | none => exact absurd (told_of_none hs.symmetric hk c) hne
        | some r =>
          obtain ⟨hlen, hgone⟩ := told_of_fate accepts (fate accepts hs.symmetric hk c) hne
          refine .inr ⟨by rw [hexec, hlen], mem_opens c (hs.within.routes k r hk), fun hw' => ?_⟩
          exact ⟨hgone, (lookup_reroutes hs hr hw' (hs.symmetric.numbered k r hk)).1⟩
    · rw [if_neg hw] at hexec
      exact .inl hexec
  · have hsame : teardowns pc (exec pc accepts s c) k = teardowns pc s k := by
      rw [hexec]
      split
      · next hw => rw [told_of_none hs.symmetric (hout hw).1 c, List.append_nil]
      · rw [List.append_nil]
    refine .inr ⟨by rw [hsame, hlen], mem_opens c hknown, fun hw' => ?_⟩
    obtain ⟨hlookup, hnext⟩ := hout (writers_reroutes hr hknown hw')
    obtain ⟨hnext', hback⟩ := lookup_reroutes hs hr hw' hnext
    refine ⟨?_, hnext'⟩
    cases hl : (exec pc accepts s c).routingTable.lookup k with
    | none => rfl
    | some r =>
      rw [hback r hl] at hlookup
      cases hlookup

theorem once_execs (hpc : pc.ControlRoundTrip) {cs : List Call} (hcs : Legal [] cs) :
    Once pc (opened [] cs) (execs pc accepts cs Server.new) := by
  have h := execs_induction pc accepts
    (P := fun known s => Sound known s.toRoutingState ∧ Once pc known s)
    (fun known s c hs hc => ⟨sound_exec pc accepts hs.1 hc, once_exec accepts hpc hs.1 hc hs.2⟩)
    hcs ⟨sound_new, fun _ => .inl rfl⟩
  exact h.2

theorem routed_of_teardowns (hpc : pc.ControlRoundTrip) {cs : List Call}
    (hs : Sound known s.toRoutingState) (hcs : Legal known cs) (hstart : teardowns pc s k = [])
    (hne : teardowns pc (execs pc accepts cs s) k ≠ []) :
    ∃ pre, pre <+: cs ∧ k ∈ (execs pc accepts pre s).routingTable := by
  induction cs generalizing known s with
  | nil => exact absurd hstart hne
  | cons c cs ih =>
    cases hk : s.routingTable.lookup k with
    | some r => exact ⟨[], List.nil_prefix, mem_of_lookup hk⟩
    | none =>
      have hnow : teardowns pc (exec pc accepts s c) k = [] := by
        rw [teardowns_exec accepts hpc hs.symmetric, told_of_none hs.symmetric hk c, hstart]
        split <;> rfl
      obtain ⟨pre, hpre, hmem⟩ := ih (sound_exec pc accepts hs hcs.1) hcs.2 hnow hne
      exact ⟨c :: pre, List.cons_prefix_cons.mpr ⟨rfl, hpre⟩, hmem⟩

variable (pc) in
/-- How a route ends in one call, and the notices its two ends are sent: both
ends hear of a revocation, the far end hears of a lost connection. -/
def Notified (s s' : ServerState) (c : Call) (r : Route) : Prop :=
  ((Revokes pc r.consumer c ∨ Revokes pc r.provider c) ∧
    ∀ e, e = r.consumer ∨ e = r.provider →
      teardowns pc s' e = teardowns pc s e ++ if e.1 ∈ s.writers then [.serviceRevoked] else []) ∨
  ∃ conn, Ends conn c ∧ (r.consumerConn = conn ∨ r.providerConn = conn) ∧
    ∀ e, e = r.consumer ∨ e = r.provider → e.1 ≠ conn →
      teardowns pc s' e = teardowns pc s e ++ if e.1 ∈ s.writers then [.connectionLost] else []

theorem Ends.unique {d d' : ConnectionId} (h : Ends d c) (h' : Ends d' c) : d = d' := by
  obtain ⟨o, rfl | rfl⟩ := h <;> obtain ⟨o', he | he⟩ := h' <;> cases he <;> rfl

theorem Ends.not_revokes {d : ConnectionId} (h : Ends d c) (j : Endpoint) : ¬ Revokes pc j c := by
  rintro ⟨o, payload, rfl, -⟩
  obtain ⟨o', he | he⟩ := h <;> cases he

theorem told_of_gone (hs : Symmetric s.toRoutingState) (hk : s.routingTable.lookup k = some r)
    (hgone : (exec pc accepts s c).routingTable.lookup k ≠ some r) :
    (Revokes pc k c ∨ Revokes pc (r.peer k.1) c) ∧
        (notices pc s c).filterMap (noticeFor k) = [.serviceRevoked] ∨
      (Ends (r.peer k.1).1 c ∧ (notices pc s c).filterMap (noticeFor k) = [.connectionLost]) ∨
      Ends k.1 c := by
  cases fate accepts hs hk c with
  | revoked h told _ => exact .inl ⟨h, told⟩
  | lost h told _ => exact .inr (.inl ⟨h, told⟩)
  | ended h _ _ => exact .inr (.inr h)
  | kept _ stays => exact absurd stays hgone

theorem notified (hpc : pc.ControlRoundTrip) (hs : Sound known s.toRoutingState)
    (hc : c.Allowed known) (hk : s.routingTable.lookup k = some r)
    (hgone : (exec pc accepts s c).routingTable.lookup k ≠ some r) :
    Notified pc s (exec pc accepts s c) c r := by
  have hs' := sound_exec pc accepts hs hc
  -- a route that is gone at one end is gone at both
  have hend : ∀ e, e = r.consumer ∨ e = r.provider → s.routingTable.lookup e = some r ∧
      (exec pc accepts s c).routingTable.lookup e ≠ some r := by
    intro e he
    have hl : s.routingTable.lookup e = some r := by
      obtain rfl | rfl := he
      · exact hs.symmetric.consumer k r hk
      · exact hs.symmetric.provider k r hk
    refine ⟨hl, fun hstay => hgone ?_⟩
    obtain rfl | rfl := hs.symmetric.endpoint k r hk
    · exact hs'.symmetric.consumer e r hstay
    · exact hs'.symmetric.provider e r hstay
  have htold : ∀ e reason, (notices pc s c).filterMap (noticeFor e) = [reason] →
      teardowns pc (exec pc accepts s c) e =
        teardowns pc s e ++ if e.1 ∈ s.writers then [reason] else [] := by
    intro e reason he
    rw [teardowns_exec accepts hpc hs.symmetric, he]
  have hlost : ∀ conn, Ends conn c → r.consumerConn = conn ∨ r.providerConn = conn →
      Notified pc s (exec pc accepts s c) c r := by
    intro conn hends hconn
    refine .inr ⟨conn, hends, hconn, fun e he hne => ?_⟩
    obtain ⟨hl, hg⟩ := hend e he
    obtain ⟨h | h, -⟩ | ⟨-, told⟩ | h := told_of_gone accepts hs.symmetric hl hg
    · exact absurd h (hends.not_revokes e)
    · exact absurd h (hends.not_revokes _)
    · exact htold e _ told
    · exact absurd (h.unique hends) hne
  obtain ⟨h, -⟩ | ⟨h, -⟩ | h := told_of_gone accepts hs.symmetric hk hgone
  · have hr : Revokes pc r.consumer c ∨ Revokes pc r.provider c := by
      obtain ⟨h1, h2⟩ | ⟨h1, h2⟩ := peer_eq hs.symmetric hk
      · exact h1 ▸ h2 ▸ h
      · exact (h1 ▸ h2 ▸ h).symm
    refine .inl ⟨hr, fun e he => ?_⟩
    obtain ⟨hl, hg⟩ := hend e he
    obtain ⟨-, told⟩ | ⟨hends, -⟩ | hends := told_of_gone accepts hs.symmetric hl hg
    · exact htold e _ told
    · obtain hr | hr := hr <;> exact absurd hr (hends.not_revokes _)
    · obtain hr | hr := hr <;> exact absurd hr (hends.not_revokes _)
  · exact hlost _ h ((peer_conn_iff hs.symmetric hk).mp (.inr rfl))
  · exact hlost _ h ((peer_conn_iff hs.symmetric hk).mp (.inl rfl))

/-- Whenever a route goes, it goes by a revocation or with one of its
connections, and its ends are sent their notices. Over a whole run no session is
sent a second notice, and none is sent one that never carried a route. -/
theorem teardown_notices (hpc : pc.ControlRoundTrip) (inputs : List Input)
    (horderly : Orderly [] inputs) :
    let calls := runCalls pc accepts Server.new inputs
    let after := fun pre => execs pc accepts pre Server.new
    (∀ pre c k r, pre ++ [c] <+: calls → (after pre).routingTable.lookup k = some r →
      (after (pre ++ [c])).routingTable.lookup k ≠ some r →
      Notified pc (after pre) (after (pre ++ [c])) c r) ∧
    (∀ k, (teardowns pc (actorLoop pc accepts inputs) k).length ≤ 1) ∧
    (∀ k, teardowns pc (actorLoop pc accepts inputs) k ≠ [] →
      ∃ pre, pre <+: calls ∧ k ∈ (after pre).routingTable) := by
  intro calls after
  have hcs : Legal [] calls := legal_runCalls pc accepts Server.new horderly
  refine ⟨fun pre c k r hpre hk hgone => ?_, fun k => ?_, fun k hne => ?_⟩
  · obtain ⟨post, hpost⟩ := hpre
    rw [← hpost, List.append_assoc] at hcs
    obtain ⟨hl, hl'⟩ := (legal_append [] pre ([c] ++ post)).mp hcs
    have hs := sound_execs pc accepts sound_new hl
    have hstep : after (pre ++ [c]) = exec pc accepts (after pre) c := execs_append pc accepts _ _ _
    rw [hstep] at hgone ⊢
    exact notified accepts hpc hs hl'.1 hk hgone
  · rw [actorLoop_eq]
    obtain h | ⟨h, -⟩ := once_execs accepts hpc hcs k
    · rw [h]
      exact Nat.zero_le _
    · exact Nat.le_of_eq h
  · rw [actorLoop_eq] at hne
    exact routed_of_teardowns accepts hpc sound_new hcs rfl hne

def revocation : List Input :=
  handshake ++ [⟨.frame ⟨2⟩ 0 (controlMessage.encode (.revokeInterest 1)), .stored⟩,
    ⟨.frame ⟨2⟩ 0 (controlMessage.encode (.revokeInterest 1)), .stored⟩]

theorem teardown_notices_revocation :
    Orderly [] revocation ∧
    (∀ k, (teardowns postcard (actorLoop postcard (fun _ => true) revocation) k).length ≤ 1) ∧
    teardowns postcard (actorLoop postcard (fun _ => true) revocation) (⟨1⟩, 1) =
      [.serviceRevoked] ∧
    teardowns postcard (actorLoop postcard (fun _ => true) revocation) (⟨2⟩, 1) =
      [.serviceRevoked] ∧
    ∃ pre, (⟨1⟩, 1) ∈ (execs postcard (fun _ => true) pre Server.new).routingTable := by
  have h : Orderly [] revocation := by simp [revocation, handshake, Orderly]
  obtain ⟨-, honce, hrouted⟩ := teardown_notices (fun _ => true) postcard_control revocation h
  have h1 : teardowns postcard (actorLoop postcard (fun _ => true) revocation) (⟨1⟩, 1) =
      [.serviceRevoked] := by decide +kernel
  obtain ⟨pre, -, hpre⟩ := hrouted (⟨1⟩, 1) (by rw [h1]; decide)
  exact ⟨h, honce, h1, by decide +kernel, pre, hpre⟩

end Pane.TeardownNotices
