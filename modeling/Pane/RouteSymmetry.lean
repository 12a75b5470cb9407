import Pane.ServerActor

namespace Pane.RouteSymmetry

open Pane.HashTable Pane.Messages Pane.Routing Pane.Server Pane.ServerActor
open Pane.Routing.RoutingState

variable {s s' : RoutingState} {known : List ConnectionId} {conn : ConnectionId}
  {k : Endpoint} {r : Route}

/-- A routing table is a set of two-way links: both ends of a route carry it,
the ends are on different connections, and their sessions were handed out. -/
structure Symmetric (s : RoutingState) : Prop where
  endpoint : ∀ k r, s.routingTable.lookup k = some r → k = r.consumer ∨ k = r.provider
  consumer : ∀ k r, s.routingTable.lookup k = some r → s.routingTable.lookup r.consumer = some r
  provider : ∀ k r, s.routingTable.lookup k = some r → s.routingTable.lookup r.provider = some r
  distinct : ∀ k r, s.routingTable.lookup k = some r → r.consumerConn ≠ r.providerConn
  positive : ∀ k r, s.routingTable.lookup k = some r → 1 ≤ k.2
  numbered : ∀ k r, s.routingTable.lookup k = some r → k.2 < s.nextOf k.1
  counting : ∀ c, 1 ≤ s.nextOf c

structure Within (known : List ConnectionId) (s : RoutingState) : Prop where
  routes : ∀ k r, s.routingTable.lookup k = some r → k.1 ∈ known
  counters : ∀ c, c ∈ s.nextSession → c ∈ known
  providers : ∀ u ps c, s.providerIndex.lookup u = some ps → c ∈ ps → c ∈ known
  writers : ∀ c, c ∈ s.writers → c ∈ known

theorem Within.mono {known' : List ConnectionId} (h : Within known s)
    (hsub : ∀ {c}, c ∈ known → c ∈ known') : Within known' s :=
  ⟨fun k r hk => hsub (h.routes k r hk), fun c hc => hsub (h.counters c hc),
    fun u ps c hu hc => hsub (h.providers u ps c hu hc), fun c hc => hsub (h.writers c hc)⟩

theorem peer_eq (h : Symmetric s) (hk : s.routingTable.lookup k = some r) :
    (k = r.consumer ∧ r.peer k.1 = r.provider) ∨ (k = r.provider ∧ r.peer k.1 = r.consumer) := by
  have hd := h.distinct k r hk
  obtain rfl | rfl := h.endpoint k r hk
  · exact .inl ⟨rfl, by simp [Route.peer, Route.consumer, Route.provider]⟩
  · exact .inr ⟨rfl, by simp [Route.peer, Route.consumer, Route.provider, hd]⟩

theorem peer_peer (h : Symmetric s) (hk : s.routingTable.lookup k = some r) :
    s.routingTable.lookup (r.peer k.1) = some r ∧ r.peer (r.peer k.1).1 = k ∧
      (r.peer k.1).1 ≠ k.1 := by
  have hd := h.distinct k r hk
  obtain ⟨rfl, hp⟩ | ⟨rfl, hp⟩ := peer_eq h hk <;> rw [hp]
  · refine ⟨h.provider _ r hk, ?_, fun he => hd he.symm⟩
    simp [Route.peer, Route.consumer, Route.provider, hd]
  · refine ⟨h.consumer _ r hk, ?_, hd⟩
    simp [Route.peer, Route.consumer, Route.provider]

theorem peer_conn_iff (h : Symmetric s) (hk : s.routingTable.lookup k = some r) :
    k.1 = conn ∨ (r.peer k.1).1 = conn ↔ r.consumerConn = conn ∨ r.providerConn = conn := by
  obtain ⟨rfl, hp⟩ | ⟨rfl, hp⟩ := peer_eq h hk <;> rw [hp]
  · rfl
  · exact or_comm

theorem Symmetric.restrict (h : Symmetric s)
    (hsub : ∀ k r, s'.routingTable.lookup k = some r → s.routingTable.lookup k = some r)
    (hpeer : ∀ k r, s'.routingTable.lookup k = some r →
      s'.routingTable.lookup (r.peer k.1) = some r)
    (hnext : ∀ k r, s'.routingTable.lookup k = some r → s.nextOf k.1 ≤ s'.nextOf k.1)
    (hcount : ∀ c, 1 ≤ s'.nextOf c) : Symmetric s' := by
  have hends : ∀ k r, s'.routingTable.lookup k = some r →
      s'.routingTable.lookup r.consumer = some r ∧ s'.routingTable.lookup r.provider = some r := by
    intro k r hk
    have hp := hpeer k r hk
    obtain ⟨rfl, he⟩ | ⟨rfl, he⟩ := peer_eq h (hsub k r hk) <;> rw [he] at hp
    · exact ⟨hk, hp⟩
    · exact ⟨hp, hk⟩
  refine ⟨fun k r hk => h.endpoint k r (hsub k r hk), fun k r hk => (hends k r hk).1,
    fun k r hk => (hends k r hk).2, fun k r hk => h.distinct k r (hsub k r hk),
    fun k r hk => h.positive k r (hsub k r hk), ?_, hcount⟩
  intro k r hk
  exact UInt16.lt_of_lt_of_le (h.numbered k r (hsub k r hk)) (hnext k r hk)

theorem symmetric_new : Symmetric Server.new.toRoutingState := by
  constructor <;> simp [Server.new, nextOf]

theorem within_new : Within [] Server.new.toRoutingState := by
  constructor <;> simp [Server.new]

theorem nextOf_of_not_mem (h : conn ∉ s.nextSession) : s.nextOf conn = 1 := by
  simp [nextOf, AList.lookup_eq_none.mpr h]

theorem one_le_add_one {n : UInt16} (h : n ≠ 0xFFFF) : 1 ≤ n + 1 ∧ n < n + 1 := by
  have hn : n.toNat < 0xFFFF := by
    have h1 := n.toNat_lt
    have h2 : n.toNat ≠ 0xFFFF := fun he => h (UInt16.toNat_inj.mp he)
    omega
  have hs : (n + 1).toNat = n.toNat + 1 := by
    rw [UInt16.toNat_add]
    exact Nat.mod_eq_of_lt (Nat.succ_lt_succ hn)
  constructor
  · rw [UInt16.le_iff_toNat_le, hs]
    simp
  · rw [UInt16.lt_iff_toNat_lt, hs]
    exact Nat.lt_succ_self _

theorem nextOf_connect (hs : Within known s) (h : conn ∉ known) (provides : List Uuid)
    (c : ConnectionId) : (s.connect conn provides).nextOf c = s.nextOf c := by
  have hnext : (s.connect conn provides).nextOf c = if c = conn then 1 else s.nextOf c :=
    nextOf_insert (s.registerProvides conn provides) conn c 1
  by_cases hc : c = conn
  · subst hc
    rw [hnext, if_pos rfl, nextOf_of_not_mem (fun hm => h (hs.counters c hm))]
  · rw [hnext, if_neg hc]

theorem symmetric_connect (hs : Symmetric s) (hw : Within known s) (h : conn ∉ known)
    (provides : List Uuid) : Symmetric (s.connect conn provides) := by
  refine hs.restrict (fun _ _ hk => hk) (fun k r hk => (peer_peer hs hk).1) ?_ ?_
  · intro k r _
    exact UInt16.le_of_eq (nextOf_connect hw h provides k.1).symm
  · intro c
    rw [nextOf_connect hw h]
    exact hs.counting c

theorem providers_pushProvider {index : Table Uuid (List ConnectionId)}
    (h : ∀ u ps c, index.lookup u = some ps → c ∈ ps → c ∈ known) (provides : List Uuid) :
    ∀ u ps c, (provides.foldl (pushProvider conn) index).lookup u = some ps → c ∈ ps →
      c ∈ conn :: known := by
  have step : ∀ index service,
      (∀ u ps c, index.lookup u = some ps → c ∈ ps → c ∈ conn :: known) →
      ∀ u ps c, (pushProvider conn index service).lookup u = some ps → c ∈ ps →
        c ∈ conn :: known := by
    intro index service hi u ps c hu hc
    rw [pushProvider, lookup_insert] at hu
    split at hu
    · obtain rfl := Option.some.inj hu
      obtain hc | hc := List.mem_append.mp hc
      · cases hl : index.lookup service with
        | none => simp [hl] at hc
        | some qs => exact hi service qs c hl (by simpa [hl] using hc)
      · exact List.mem_cons.mpr (.inl (List.mem_singleton.mp hc))
    · exact hi u ps c hu hc
  have hstart : ∀ u ps c, index.lookup u = some ps → c ∈ ps → c ∈ conn :: known :=
    fun u ps c hu hc => List.mem_cons_of_mem _ (h u ps c hu hc)
  clear h
  induction provides generalizing index with
  | nil => exact hstart
  | cons service provides ih => exact ih (step index service hstart)

theorem within_connect (hw : Within known s) (provides : List Uuid) :
    Within (conn :: known) (s.connect conn provides) := by
  refine ⟨fun k r hk => List.mem_cons_of_mem _ (hw.routes k r hk), ?_,
    providers_pushProvider hw.providers provides, ?_⟩
  · intro c hc
    obtain rfl | hc := (AList.mem_insert _).mp hc
    · exact List.mem_cons_self
    · exact List.mem_cons_of_mem _ (hw.counters c hc)
  · intro c hc
    obtain rfl | hc := (AList.mem_insert _).mp hc
    · exact List.mem_cons_self
    · exact List.mem_cons_of_mem _ (hw.writers c hc)

theorem lookup_fresh (hs : Symmetric s) (c : ConnectionId) :
    s.routingTable.lookup (c, s.nextOf c) = none := by
  cases h : s.routingTable.lookup (c, s.nextOf c) with
  | none => rfl
  | some r => exact absurd (hs.numbered _ r h) (UInt16.lt_irrefl _)

theorem lookup_link (s : RoutingState) (c p : ConnectionId) (k : Endpoint) :
    (s.link c p).routingTable.lookup k =
      if k = (s.freshRoute c p).provider ∨ k = (s.freshRoute c p).consumer
      then some (s.freshRoute c p) else s.routingTable.lookup k := by
  simp only [link, lookup_insert, freshRoute, Route.provider, Route.consumer]
  by_cases hp : k = (p, s.nextOf p)
  · simp [hp]
  · by_cases hc : k = (c, s.nextOf c) <;> simp [hp, hc]

theorem lookup_link_iff (hs : Symmetric s) (c p : ConnectionId) (k : Endpoint) (r : Route) :
    (s.link c p).routingTable.lookup k = some r ↔
      s.routingTable.lookup k = some r ∨
        r = s.freshRoute c p ∧ (k = r.consumer ∨ k = r.provider) := by
  rw [lookup_link]
  split
  · next h =>
    have hnone : s.routingTable.lookup k = none := by
      obtain rfl | rfl := h
      · exact lookup_fresh hs p
      · exact lookup_fresh hs c
    constructor
    · intro he
      obtain rfl := Option.some.inj he
      exact .inr ⟨rfl, h.symm⟩
    · rintro (he | ⟨rfl, -⟩)
      · rw [hnone] at he
        cases he
      · rfl
  · next h =>
    constructor
    · exact .inl
    · rintro (he | ⟨rfl, he⟩)
      · exact he
      · exact absurd he.symm h

theorem nextOf_link {c p : ConnectionId} (hpc : p ≠ c) (d : ConnectionId) :
    (s.link c p).nextOf d = if d = p ∨ d = c then s.nextOf d + 1 else s.nextOf d := by
  simp only [link, nextOf, lookup_insert]
  by_cases hp : d = p
  · subst hp
    simp
  · by_cases hc : d = c
    · subst hc
      simp [hp]
    · simp [hp, hc]

theorem nextOf_le_link {c p : ConnectionId} (hpc : p ≠ c) (hc : s.nextOf c ≠ 0xFFFF)
    (hp : s.nextOf p ≠ 0xFFFF) (d : ConnectionId) : s.nextOf d ≤ (s.link c p).nextOf d := by
  rw [nextOf_link hpc]
  split
  · next h =>
    have hd : s.nextOf d ≠ 0xFFFF := by
      obtain rfl | rfl := h <;> assumption
    exact UInt16.le_of_lt (one_le_add_one hd).2
  · exact UInt16.le_refl _

theorem nextOf_le_declare (c : ConnectionId) (service : Uuid) (d : ConnectionId) :
    s.nextOf d ≤ (s.handleDeclareInterest c service).2.nextOf d := by
  obtain ⟨reason, he⟩ | ⟨hc, he⟩ | ⟨p, -, hpc, hc, ⟨hp, he⟩ | ⟨hp, he⟩⟩ :=
    handleDeclareInterest_cases c service s <;> rw [he]
  · exact UInt16.le_refl _
  · rw [nextOf_insert]
    split
    · next h =>
      rw [h, hc]
      exact UInt16.le_refl _
    · exact UInt16.le_refl _
  · simp only [nextOf, lookup_insert]
    split
    · next h =>
      subst h
      exact UInt16.le_of_eq hp
    · split
      · next h =>
        subst h
        exact UInt16.le_of_lt (one_le_add_one hc).2
      · exact UInt16.le_refl _
  · exact nextOf_le_link hpc hc hp d

theorem symmetric_link (hs : Symmetric s) {c p : ConnectionId} (hpc : p ≠ c)
    (hc : s.nextOf c ≠ 0xFFFF) (hp : s.nextOf p ≠ 0xFFFF) : Symmetric (s.link c p) := by
  have hends : ∀ k r, (s.link c p).routingTable.lookup k = some r →
      (s.link c p).routingTable.lookup r.consumer = some r ∧
        (s.link c p).routingTable.lookup r.provider = some r := by
    intro k r hk
    have hiff := fun j => (lookup_link_iff hs c p j r).mpr
    obtain hk | ⟨rfl, -⟩ := (lookup_link_iff hs c p k r).mp hk
    · exact ⟨hiff _ (.inl (hs.consumer k r hk)), hiff _ (.inl (hs.provider k r hk))⟩
    · exact ⟨hiff _ (.inr ⟨rfl, .inl rfl⟩), hiff _ (.inr ⟨rfl, .inr rfl⟩)⟩
  have hnew : ∀ k, k = (s.freshRoute c p).consumer ∨ k = (s.freshRoute c p).provider →
      1 ≤ k.2 ∧ k.2 < (s.link c p).nextOf k.1 := by
    rintro k (rfl | rfl)
    · refine ⟨hs.counting c, ?_⟩
      simpa [nextOf_link hpc, freshRoute, Route.consumer] using (one_le_add_one hc).2
    · refine ⟨hs.counting p, ?_⟩
      simpa [nextOf_link hpc, freshRoute, Route.provider] using (one_le_add_one hp).2
  constructor
  · intro k r hk
    obtain hk | ⟨rfl, hk⟩ := (lookup_link_iff hs c p k r).mp hk
    · exact hs.endpoint k r hk
    · exact hk
  · exact fun k r hk => (hends k r hk).1
  · exact fun k r hk => (hends k r hk).2
  · intro k r hk
    obtain hk | ⟨rfl, -⟩ := (lookup_link_iff hs c p k r).mp hk
    · exact hs.distinct k r hk
    · exact fun he => hpc he.symm
  · intro k r hk
    obtain hk | ⟨rfl, hk⟩ := (lookup_link_iff hs c p k r).mp hk
    · exact hs.positive k r hk
    · exact (hnew k hk).1
  · intro k r hk
    obtain hk | ⟨rfl, hk⟩ := (lookup_link_iff hs c p k r).mp hk
    · exact UInt16.lt_of_lt_of_le (hs.numbered k r hk) (nextOf_le_link hpc hc hp k.1)
    · exact (hnew k hk).2
  · exact fun d => UInt16.le_trans (hs.counting d) (nextOf_le_link hpc hc hp d)

theorem symmetric_declare (hs : Symmetric s) (c : ConnectionId) (service : Uuid) :
    Symmetric (s.handleDeclareInterest c service).2 := by
  have hadvance : ∀ s' : RoutingState, s'.routingTable = s.routingTable →
      (∀ d, s.nextOf d ≤ s'.nextOf d) → Symmetric s' := by
    intro s' ht hn
    refine hs.restrict (fun k r hk => ht ▸ hk) (fun k r hk => ?_) (fun k _ _ => hn k.1)
      (fun d => UInt16.le_trans (hs.counting d) (hn d))
    rw [ht] at hk ⊢
    exact (peer_peer hs hk).1
  have hn := nextOf_le_declare (s := s) c service
  obtain ⟨reason, he⟩ | ⟨-, he⟩ | ⟨p, -, hpc, hc, ⟨-, he⟩ | ⟨hp, he⟩⟩ :=
    handleDeclareInterest_cases c service s <;> rw [he] at hn ⊢
  · exact hs
  · exact hadvance _ rfl hn
  · exact hadvance _ rfl hn
  · exact symmetric_link hs hpc hc hp

theorem within_declare (hs : Symmetric s) (hw : Within known s) {c : ConnectionId}
    (hck : c ∈ known) (service : Uuid) : Within known (s.handleDeclareInterest c service).2 := by
  obtain ⟨reason, he⟩ | ⟨hc, he⟩ | ⟨p, hl, hpc, hc, hp⟩ := handleDeclareInterest_cases c service s
  · rw [he]
    exact hw
  · rw [he]
    refine ⟨hw.routes, ?_, hw.providers, hw.writers⟩
    intro d hd
    obtain rfl | hd := (AList.mem_insert _).mp hd
    · exact hck
    · exact hw.counters d hd
  · have hpk : p ∈ known := by
      obtain ⟨ps, hps, hh⟩ := Option.bind_eq_some_iff.mp hl
      exact hw.providers service ps p hps (List.mem_of_head? hh)
    have hcount : ∀ n m d, d ∈ (s.nextSession.insert c n).insert p m → d ∈ known := by
      intro n m d hd
      obtain rfl | hd := (AList.mem_insert _).mp hd
      · exact hpk
      · obtain rfl | hd := (AList.mem_insert _).mp hd
        · exact hck
        · exact hw.counters d hd
    obtain ⟨hp, he⟩ | ⟨hp, he⟩ := hp <;> rw [he]
    · exact ⟨hw.routes, hcount _ _, hw.providers, hw.writers⟩
    · refine ⟨?_, hcount _ _, hw.providers, hw.writers⟩
      intro k r hk
      obtain hk | ⟨rfl, rfl | rfl⟩ := (lookup_link_iff hs c p k r).mp hk
      · exact hw.routes k r hk
      · exact hck
      · exact hpk

end Pane.RouteSymmetry
