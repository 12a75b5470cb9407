import Pane.RouteSymmetry

namespace Pane.RouteRemoval

open Pane.HashTable Pane.Messages Pane.Routing Pane.RouteSymmetry
open Pane.Routing.RoutingState

variable {s s' : RoutingState} {known : List ConnectionId} {conn : ConnectionId}

theorem lookup_revoke (hs : Symmetric s) {c : ConnectionId} {n : UInt16} {r₀ : Route}
    (h₀ : s.routingTable.lookup (c, n) = some r₀) (k : Endpoint) (r : Route) :
    (s.revoke c n).2.routingTable.lookup k = some r ↔
      s.routingTable.lookup k = some r ∧ r ≠ r₀ := by
  have hp := (peer_peer hs h₀).1
  rw [revoke_some h₀]
  constructor
  · intro hk
    obtain ⟨hkp, hkept⟩ := lookup_of_lookup_erase hk
    obtain ⟨hkc, hold⟩ := lookup_of_lookup_erase hkept
    refine ⟨hold, ?_⟩
    rintro rfl
    obtain ⟨h1, h2⟩ | ⟨h1, h2⟩ := peer_eq hs h₀ <;>
      obtain rfl | rfl := hs.endpoint k r hold
    · exact hkc h1.symm
    · exact hkp h2.symm
    · exact hkp h2.symm
    · exact hkc h1.symm
  · rintro ⟨hk, hr⟩
    have hkept : ¬ (k = (c, n) ∨ k = r₀.peer c) := by
      rintro (rfl | rfl)
      · exact hr (Option.some.inj (hk.symm.trans h₀))
      · exact hr (Option.some.inj (hk.symm.trans hp))
    rw [lookup_erase_erase, if_neg hkept, hk]

theorem symmetric_filter (hs : Symmetric s) {P : Route → Prop}
    (h : ∀ k r, s'.routingTable.lookup k = some r ↔ s.routingTable.lookup k = some r ∧ P r)
    (hnext : ∀ k r, s'.routingTable.lookup k = some r → s.nextOf k.1 ≤ s'.nextOf k.1)
    (hcount : ∀ c, 1 ≤ s'.nextOf c) : Symmetric s' := by
  refine hs.restrict (fun k r hk => ((h k r).mp hk).1) ?_ hnext hcount
  intro k r hk
  obtain ⟨hk, hr⟩ := (h k r).mp hk
  exact (h _ r).mpr ⟨(peer_peer hs hk).1, hr⟩

theorem nextOf_revoke (c d : ConnectionId) (n : UInt16) : (s.revoke c n).2.nextOf d = s.nextOf d := by
  unfold revoke
  split <;> rfl

theorem symmetric_revoke (hs : Symmetric s) (c : ConnectionId) (n : UInt16) :
    Symmetric (s.revoke c n).2 := by
  cases h : s.routingTable.lookup (c, n) with
  | none =>
    rw [revoke_none h]
    exact hs
  | some r =>
    refine symmetric_filter hs (lookup_revoke hs h) (fun k _ _ => ?_) (fun d => ?_)
    · exact UInt16.le_of_eq (nextOf_revoke c k.1 n).symm
    · rw [nextOf_revoke]
      exact hs.counting d

theorem within_revoke (hs : Symmetric s) (hw : Within known s) (c : ConnectionId) (n : UInt16) :
    Within known (s.revoke c n).2 := by
  cases h : s.routingTable.lookup (c, n) with
  | none =>
    rw [revoke_none h]
    exact hw
  | some r =>
    refine ⟨fun k r' hk => hw.routes k r' ((lookup_revoke hs h k r').mp hk).1, ?_, ?_, ?_⟩ <;>
      rw [revoke_some h]
    · exact hw.counters
    · exact hw.providers
    · exact hw.writers

def farEnds (t : Table Endpoint Route) (conn : ConnectionId) (keys : List Endpoint) :
    List Endpoint :=
  keys.filterMap (fun key => (t.lookup key).map (fun route => route.peer conn))

theorem farEnds_erase_erase (t : Table Endpoint Route) {keys : List Endpoint} {key far : Endpoint}
    (hkey : key ∉ keys) (hfar : far ∉ keys) :
    farEnds ((t.erase key).erase far) conn keys = farEnds t conn keys := by
  apply List.filterMap_congr
  intro k hk
  have hne : ¬ (k = key ∨ k = far) := by
    rintro (rfl | rfl)
    · exact hkey hk
    · exact hfar hk
  rw [lookup_erase_erase, if_neg hne]

theorem foldl_removeRoute {t : Table Endpoint Route} {keys : List Endpoint}
    (hnd : keys.Nodup) (hkeys : ∀ k ∈ keys, k.1 = conn)
    (hfar : ∀ k r, t.lookup k = some r → k.1 = conn → (r.peer conn).1 ≠ conn)
    (peers : List Endpoint) :
    (keys.foldl (removeRoute conn) (t, peers)).2 = peers ++ farEnds t conn keys ∧
      ∀ k, (keys.foldl (removeRoute conn) (t, peers)).1.lookup k =
        if k ∈ keys ∨ k ∈ farEnds t conn keys then none else t.lookup k := by
  induction keys generalizing t peers with
  | nil => simp [farEnds]
  | cons key keys ih =>
    obtain ⟨hnot, hnd⟩ := List.nodup_cons.mp hnd
    have hkey := hkeys key List.mem_cons_self
    have hrest : ∀ k ∈ keys, k.1 = conn := fun k hk => hkeys k (List.mem_cons_of_mem _ hk)
    cases hl : t.lookup key with
    | none =>
      have hfold : (key :: keys).foldl (removeRoute conn) (t, peers) =
          keys.foldl (removeRoute conn) (t, peers) := by simp [removeRoute, hl]
      have hends : farEnds t conn (key :: keys) = farEnds t conn keys := by simp [farEnds, hl]
      obtain ⟨h1, h2⟩ := ih hnd hrest hfar peers
      rw [hfold, hends]
      refine ⟨h1, fun k => ?_⟩
      rw [h2 k]
      by_cases hk : k = key
      · subst hk
        simp [hl]
      · simp [hk]
    | some route =>
      let t' := (t.erase key).erase (route.peer conn)
      have ht' : ∀ k, t'.lookup k =
          if k = key ∨ k = route.peer conn then none else t.lookup k :=
        fun k => lookup_erase_erase t k key (route.peer conn)
      have hnotFar : route.peer conn ∉ keys :=
        fun hmem => hfar key route hl hkey (hrest _ hmem)
      have hends : farEnds t conn (key :: keys) = route.peer conn :: farEnds t' conn keys := by
        rw [farEnds_erase_erase t hnot hnotFar]
        simp [farEnds, hl]
      have hfar' : ∀ k r, t'.lookup k = some r → k.1 = conn → (r.peer conn).1 ≠ conn := by
        intro k r hk
        rw [ht' k] at hk
        split at hk
        · cases hk
        · exact hfar k r hk
      obtain ⟨h1, h2⟩ := ih hnd hrest hfar' (peers ++ [route.peer conn])
      have hfold : (key :: keys).foldl (removeRoute conn) (t, peers) =
          keys.foldl (removeRoute conn) (t', peers ++ [route.peer conn]) := by
        simp [removeRoute, hl, t']
      rw [hfold, hends]
      refine ⟨by rw [h1, List.append_assoc, List.singleton_append], fun k => ?_⟩
      rw [h2 k, ht' k]
      by_cases hk : k ∈ keys ∨ k ∈ farEnds t' conn keys
      · rw [if_pos hk, if_pos (by simp only [List.mem_cons]; tauto)]
      · rw [if_neg hk]
        by_cases hkey : k = key ∨ k = route.peer conn
        · rw [if_pos hkey, if_pos (by simp only [List.mem_cons]; tauto)]
        · rw [if_neg hkey, if_neg (by simp only [List.mem_cons]; tauto)]

theorem mem_affectedKeys (order : Order Endpoint) (k : Endpoint) :
    k ∈ s.affectedKeys order conn ↔ k ∈ s.routingTable ∧ k.1 = conn := by
  simp [affectedKeys, AList.mem_keys]

theorem removeConnection_spec (hs : Symmetric s) (order : Order Endpoint) (conn : ConnectionId) :
    (s.removeConnection order conn).1 = farEnds s.routingTable conn (s.affectedKeys order conn) ∧
      ∀ k, (s.removeConnection order conn).2.routingTable.lookup k =
        if k ∈ s.affectedKeys order conn ∨
          k ∈ farEnds s.routingTable conn (s.affectedKeys order conn) then none
        else s.routingTable.lookup k := by
  have hnd : (s.affectedKeys order conn).Nodup :=
    (order.nodup_arrange s.routingTable.keys_nodup).filter _
  have hkeys : ∀ k ∈ s.affectedKeys order conn, k.1 = conn :=
    fun k hk => ((mem_affectedKeys order k).mp hk).2
  have hfar : ∀ k r, s.routingTable.lookup k = some r → k.1 = conn → (r.peer conn).1 ≠ conn := by
    rintro k r hk rfl
    exact (peer_peer hs hk).2.2
  have h := foldl_removeRoute hnd hkeys hfar []
  rw [List.nil_append] at h
  exact h

theorem mem_farEnds (hs : Symmetric s) (order : Order Endpoint) (k : Endpoint) :
    k ∈ farEnds s.routingTable conn (s.affectedKeys order conn) ↔
      ∃ r, s.routingTable.lookup k = some r ∧ (r.peer k.1).1 = conn := by
  simp only [farEnds, List.mem_filterMap, mem_affectedKeys, Option.map_eq_some_iff]
  constructor
  · rintro ⟨j, ⟨-, rfl⟩, r, hj, rfl⟩
    obtain ⟨h1, h2, -⟩ := peer_peer hs hj
    exact ⟨r, h1, by rw [h2]⟩
  · rintro ⟨r, hk, rfl⟩
    obtain ⟨h1, h2, -⟩ := peer_peer hs hk
    exact ⟨r.peer k.1, ⟨mem_of_lookup h1, rfl⟩, r, h1, h2⟩

theorem lookup_removeConnection (hs : Symmetric s) (order : Order Endpoint) (conn : ConnectionId)
    (k : Endpoint) (r : Route) :
    (s.removeConnection order conn).2.routingTable.lookup k = some r ↔
      s.routingTable.lookup k = some r ∧ ¬ (r.consumerConn = conn ∨ r.providerConn = conn) := by
  rw [(removeConnection_spec hs order conn).2 k]
  by_cases hk : s.routingTable.lookup k = some r
  · have hgone : k ∈ s.affectedKeys order conn ∨
        k ∈ farEnds s.routingTable conn (s.affectedKeys order conn) ↔
          r.consumerConn = conn ∨ r.providerConn = conn := by
      rw [mem_farEnds hs, mem_affectedKeys, ← peer_conn_iff hs hk]
      simp [hk, mem_of_lookup hk]
    simp only [hgone, hk, true_and]
    split <;> simp_all
  · simp [hk]

theorem nextOf_removeConnection (order : Order Endpoint) (conn d : ConnectionId) :
    (s.removeConnection order conn).2.nextOf d = if d = conn then 1 else s.nextOf d := by
  simp only [removeConnection, nextOf, lookup_erase]
  split <;> rfl

theorem symmetric_removeConnection (hs : Symmetric s) (order : Order Endpoint)
    (conn : ConnectionId) : Symmetric (s.removeConnection order conn).2 := by
  refine symmetric_filter hs (lookup_removeConnection hs order conn) ?_ ?_
  · intro k r hk
    obtain ⟨hk, hr⟩ := (lookup_removeConnection hs order conn k r).mp hk
    have hne : k.1 ≠ conn := fun he => hr ((peer_conn_iff hs hk).mp (.inl he))
    rw [nextOf_removeConnection, if_neg hne]
    exact UInt16.le_refl _
  · intro d
    rw [nextOf_removeConnection]
    split
    · exact UInt16.le_refl _
    · exact hs.counting d

theorem lookup_retainProviders {index : Table Uuid (List ConnectionId)} {services : List Uuid}
    {u : Uuid} {ps : List ConnectionId} (c : ConnectionId)
    (h : (services.foldl (retainProviders conn) index).lookup u = some ps) (hc : c ∈ ps) :
    ∃ qs, index.lookup u = some qs ∧ c ∈ qs := by
  induction services generalizing index with
  | nil => exact ⟨ps, h, hc⟩
  | cons service services ih =>
    obtain ⟨qs, hqs, hcq⟩ := ih h
    unfold retainProviders at hqs
    cases hl : index.lookup service with
    | none => exact ⟨qs, by simpa [hl] using hqs, hcq⟩
    | some providers =>
      simp only [hl] at hqs
      split at hqs
      · exact ⟨qs, (lookup_of_lookup_erase hqs).2, hcq⟩
      · rw [lookup_insert] at hqs
        split at hqs
        · next heq =>
          obtain rfl := Option.some.inj hqs
          exact ⟨providers, heq ▸ hl, List.mem_of_mem_filter hcq⟩
        · exact ⟨qs, hqs, hcq⟩

theorem within_removeConnection (hs : Symmetric s) (hw : Within known s) (order : Order Endpoint)
    (conn : ConnectionId) : Within known (s.removeConnection order conn).2 := by
  refine ⟨?_, ?_, ?_, ?_⟩
  · exact fun k r hk => hw.routes k r ((lookup_removeConnection hs order conn k r).mp hk).1
  · exact fun c hc => hw.counters c (AList.mem_erase.mp hc).2
  · intro u ps c hu hc
    obtain ⟨qs, hqs, hcq⟩ := lookup_retainProviders c hu hc
    exact hw.providers u qs c hqs hcq
  · exact fun c hc => hw.writers c (AList.mem_erase.mp hc).2

end Pane.RouteRemoval
