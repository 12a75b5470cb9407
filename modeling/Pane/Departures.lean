import Pane.FrameLimits
import Pane.ProviderSelection

namespace Pane.Departures

open Pane.HashTable Pane.Messages Pane.Routing Pane.Routing.RoutingState Pane.Server
open Pane.Server.ServerState Pane.ServerFrame Pane.ServerActor Pane.RouteSymmetry
open Pane.RouteRemoval Pane.RouteTable Pane.Offers Pane.RoutePipes Pane.Watches
open Pane.GhostConnections Pane.FrameLimits Pane.ProviderSelection Pane.PostcardFormat

/-- A connection occurs in none of the tables of the server. -/
structure Absent (c : ConnectionId) (s : ServerState) : Prop where
  providers : ∀ u ps, s.providerIndex.lookup u = some ps → c ∉ ps
  routes : ∀ k r, s.routingTable.lookup k = some r →
    k.1 ≠ c ∧ r.consumerConn ≠ c ∧ r.providerConn ≠ c
  counter : c ∉ s.nextSession
  writer : c ∉ s.writers
  address : c ∉ s.connAddresses
  watched : c ∉ s.watchTable ∧ ∀ k set, s.watchTable.lookup k = some set → c ∉ set
  watcher : c ∉ s.watcherReverse ∧ ∀ k set, s.watcherReverse.lookup k = some set → c ∉ set

/-- All these tables are empty. -/
structure Vacant (s : ServerState) : Prop where
  providers : s.providerIndex = ∅
  routes : s.routingTable = ∅
  counters : s.nextSession = ∅
  writers : s.writers = ∅
  addresses : s.connAddresses = ∅
  watched : s.watchTable = ∅
  watchers : s.watcherReverse = ∅

/-- The tables of two states hold the same, and nothing was sent between them. -/
structure Unmoved (s s' : ServerState) : Prop where
  providers : ∀ u, s'.providerIndex.lookup u = s.providerIndex.lookup u
  routes : ∀ k, s'.routingTable.lookup k = s.routingTable.lookup k
  counters : ∀ d, s'.nextSession.lookup d = s.nextSession.lookup d
  writers : ∀ d, s'.writers.lookup d = s.writers.lookup d
  addresses : ∀ d, s'.connAddresses.lookup d = s.connAddresses.lookup d
  watched : ∀ d, s'.watchTable.lookup d = s.watchTable.lookup d
  watchers : ∀ d, s'.watcherReverse.lookup d = s.watcherReverse.lookup d
  attempts : s'.attempts = s.attempts
  overflowTeardown : s'.overflowTeardown = s.overflowTeardown

def Stocked (index : Table Uuid (List ConnectionId)) : Prop :=
  ∀ u ps, index.lookup u = some ps → ps ≠ []

section Index

variable {index index' : Table Uuid (List ConnectionId)} {conn : ConnectionId}

theorem stocked_registerProvides (h : Stocked index) (provides : List Uuid) :
    Stocked (provides.foldl (pushProvider conn) index) := by
  induction provides generalizing index with
  | nil => exact h
  | cons service provides ih =>
    refine ih (fun u ps hu => ?_)
    rw [pushProvider, lookup_insert] at hu
    split at hu
    · cases hu
      simp
    · exact h u ps hu

theorem stocked_retainProviders (h : Stocked index) (services : List Uuid) :
    Stocked (services.foldl (retainProviders conn) index) := by
  induction services generalizing index with
  | nil => exact h
  | cons service services ih =>
    refine ih (fun u ps hu => ?_)
    unfold retainProviders at hu
    split at hu
    · exact h u ps hu
    · dsimp only at hu
      split at hu
      · exact h u ps (lookup_of_lookup_erase hu).2
      · next hne =>
        rw [lookup_insert] at hu
        split at hu
        · cases hu
          exact hne
        · exact h u ps hu

theorem lookup_of_indexed (h : Stocked index) (h' : Stocked index') {u : Uuid}
    (heq : indexed index' u = indexed index u) : index'.lookup u = index.lookup u := by
  unfold indexed at heq
  cases hl : index.lookup u with
  | none =>
    cases hl' : index'.lookup u with
    | none => rfl
    | some ps =>
      rw [hl, hl'] at heq
      exact absurd heq (h' u ps hl')
  | some qs =>
    cases hl' : index'.lookup u with
    | none =>
      rw [hl, hl'] at heq
      exact absurd heq.symm (h u qs hl)
    | some ps =>
      rw [hl, hl'] at heq
      exact congrArg some heq

theorem indexed_kept (h : ∀ u ps, index.lookup u = some ps → conn ∉ ps) (u : Uuid) :
    indexed (index.keys.foldl (retainProviders conn) index) u = indexed index u := by
  rw [indexed_removed, List.filter_eq_self]
  intro d hd
  rw [decide_eq_true_iff]
  rintro rfl
  unfold indexed at hd
  cases hu : index.lookup u with
  | none => simp [hu] at hd
  | some ps =>
    rw [hu, Option.getD_some] at hd
    exact h u ps hu hd

theorem stocked_reroutes {known known' : List ConnectionId} {s s' : RoutingState}
    (h : Stocked s.providerIndex) (hr : Reroutes known s known' s') : Stocked s'.providerIndex := by
  cases hr with
  | keep => exact h
  | connect conn provides hc => exact stocked_registerProvides h provides
  | declare conn service hc =>
    rw [providerIndex_declare]
    exact h
  | revoke conn sessionId =>
    rw [providerIndex_revoke]
    exact h
  | remove order conn => exact stocked_retainProviders h _

end Index

structure Settled (known : List ConnectionId) (s : ServerState) : Prop
    extends Addressed known s where
  stocked : Stocked s.providerIndex
  watchers : ∀ c w, Listed s.watchTable c w → w ∈ known

theorem settled_new : Settled [] Server.new := by
  refine ⟨addressed_new, fun u ps h => ?_, ?_⟩
  · cases h
  · rintro c w ⟨set, hset, -⟩
    cases hset

section Calls

variable {pc : Postcard} (accepts : Nat → Bool) {known : List ConnectionId} {s : ServerState}

theorem settled_watchers {c : Call} (h : Settled known s) (hc : c.Allowed known)
    (hr : Rewatches pc (registry s) c (registry (exec pc accepts s c))) (d w : ConnectionId)
    (hd : Listed (exec pc accepts s c).watchTable d w) : w ∈ c.opens known := by
  apply mem_opens
  change Listed (registry (exec pc accepts s c)).watchTable d w at hd
  generalize registry (exec pc accepts s c) = r at hr hd
  cases hr with
  | join conn _ => exact h.watchers d w hd
  | leave conn _ hremoves => exact h.watchers d w ((hremoves.watched d w).mp hd).1
  | watch conn targetConn target hwatch ht =>
    obtain ⟨-, rfl⟩ | hd := listed_addMember.mp hd
    · have happly : w ∈ applicant pc c := by simp [applicant, hwatch]
      exact applicant_known happly hc
    · exact h.watchers d w hd
  | unwatch conn targetConn target _ ht => exact h.watchers d w (listed_dropMember.mp hd).1
  | keep _ _ _ => exact h.watchers d w hd

theorem settled_exec (hpc : pc.ControlRoundTrip) {c : Call} (h : Settled known s)
    (hc : c.Allowed known) : Settled (c.opens known) (exec pc accepts s c) :=
  ⟨addressed_exec accepts hpc h.toAddressed hc,
    stocked_reroutes h.stocked (exec_reroutes pc accepts s c hc),
    settled_watchers accepts h hc (exec_rewatches accepts hpc h.books c)⟩

theorem settled_execs (hpc : pc.ControlRoundTrip) {cs : List Call} (h : Settled known s)
    (hcs : Legal known cs) : Settled (opened known cs) (execs pc accepts cs s) :=
  execs_induction pc accepts (fun _ _ _ hs hc => settled_exec accepts hpc hs hc) hcs h

def without (c : ConnectionId) (known : List ConnectionId) : List ConnectionId :=
  known.filter (fun d => d ≠ c)

theorem mem_without {c d : ConnectionId} : d ∈ without c known ↔ d ∈ known ∧ d ≠ c := by
  simp [without]

theorem settled_disconnect (hpc : pc.ControlRoundTrip) (h : Settled known s) (order : HashOrder)
    (conn : ConnectionId) :
    Settled (without conn known) (s.processDisconnect pc accepts order conn) := by
  have hafter : Settled known (exec pc accepts s (.tearDown order conn)) :=
    settled_exec accepts hpc (c := .tearDown order conn) h trivial
  have hremoves := removes_processDisconnect accepts order hpc h.books conn
  refine ⟨⟨⟨hafter.sound.symmetric, ?_⟩, hafter.books, hafter.addresses⟩, hafter.stocked, ?_⟩
  · rw [toRoutingState_processDisconnect]
    exact within_filter_removed h.sound.symmetric h.sound.within order.routes conn
  · intro c w hw
    obtain ⟨hw, -, hne⟩ := (hremoves.watched c w).mp hw
    exact mem_without.mpr ⟨h.watchers c w hw, hne⟩

theorem Settled.absent {c : ConnectionId} (h : Settled known s) (hc : c ∉ known) :
    Absent c s := by
  have hkey : ∀ k r, s.routingTable.lookup k = some r → k.1 ≠ c :=
    fun k r hk he => hc (he ▸ h.sound.within.routes k r hk)
  have haddress : c ∉ s.connAddresses := fun hmem => hc (h.sound.within.writers c (h.addresses c hmem))
  have hwatched : ∀ w, ¬ Listed s.watchTable c w :=
    fun w hw => haddress (h.books.registered c (mem_of_listed hw))
  have hwatcher : ∀ d, ¬ Listed s.watchTable d c := fun d hd => hc (h.watchers d c hd)
  refine ⟨fun u ps hu hmem => hc (h.sound.within.providers u ps c hu hmem), fun k r hk => ?_,
    fun hmem => hc (h.sound.within.counters c hmem),
    fun hmem => hc (h.sound.within.writers c hmem), haddress, ⟨?_, ?_⟩, ?_, ?_⟩
  · exact ⟨hkey k r hk, hkey _ r (h.sound.symmetric.consumer k r hk),
      hkey _ r (h.sound.symmetric.provider k r hk)⟩
  · intro hmem
    obtain ⟨w, hw⟩ := h.books.tightWatched.exists_listed hmem
    exact hwatched w hw
  · exact fun k set hset hmem => hwatcher k ⟨set, hset, hmem⟩
  · intro hmem
    obtain ⟨d, hd⟩ := h.books.tightWatchers.exists_listed hmem
    exact hwatcher d ((h.books.mirrored d c).mpr hd)
  · exact fun k set hset hmem => hwatched k ((h.books.mirrored c k).mpr ⟨set, hset, hmem⟩)

variable (pc) in
theorem unmoved_disconnect {c : ConnectionId} (h : Absent c s) (hstocked : Stocked s.providerIndex)
    (order : HashOrder) : Unmoved s (s.processDisconnect pc accepts order c) := by
  have hwatched : s.watchTable.lookup c = none := AList.lookup_eq_none.mpr h.watched.1
  have hwatcher : s.watcherReverse.lookup c = none := AList.lookup_eq_none.mpr h.watcher.1
  have hkeys : s.affectedKeys order.routes c = [] := by
    refine List.filter_eq_nil_iff.mpr (fun k hk => ?_)
    rw [Order.mem_arrange, ← AList.mem_keys] at hk
    obtain ⟨r, hr⟩ := mem_iff_lookup.mp hk
    exact fun he => (h.routes k r hr).1 (of_decide_eq_true he)
  have hdone : s.processDisconnect pc accepts order c =
      { s with
        connAddresses := s.connAddresses.erase c
        providerIndex := s.providerIndex.keys.foldl (retainProviders c) s.providerIndex
        nextSession := s.nextSession.erase c
        writers := s.writers.erase c } := by
    simp only [processDisconnect, notifyWatchers, hwatched, forgetWatches, hwatcher,
      removeConnection, hkeys, List.foldl_nil]
  have herased : ∀ {V : Type} (t : Table ConnectionId V), c ∉ t → ∀ d,
      (t.erase c).lookup d = t.lookup d := by
    intro V t ht d
    rw [lookup_erase]
    split
    · next hd =>
      subst hd
      exact (AList.lookup_eq_none.mpr ht).symm
    · rfl
  rw [hdone]
  refine ⟨fun u => ?_, fun _ => rfl, herased _ h.counter, herased _ h.writer,
    herased _ h.address, fun _ => rfl, fun _ => rfl, rfl, rfl⟩
  exact lookup_of_indexed hstocked (stocked_retainProviders hstocked _)
    (indexed_kept h.providers u)

end Calls

def subject : ServerEvent → ConnectionId
  | .newConnection conn _ => conn
  | .frame conn _ _ => conn
  | .disconnected conn => conn

def Silent (c : ConnectionId) (calls : List Call) : Prop :=
  ∀ order event, .event order event ∈ calls → subject event ≠ c

section Silence

variable {c : ConnectionId} {known : List ConnectionId}

theorem allowed_without {call : Call} (h : call.Allowed known)
    (hc : ∀ order event, call = .event order event → subject event ≠ c) :
    call.Allowed (without c known) := by
  cases call with
  | event order event =>
    have hne := hc order event rfl
    cases event with
    | newConnection conn hello => exact fun hmem => h (mem_without.mp hmem).1
    | frame conn service payload => exact mem_without.mpr ⟨h, hne⟩
    | disconnected conn => exact mem_without.mpr ⟨h, hne⟩
  | _ => trivial

theorem opens_without {call : Call}
    (hc : ∀ order event, call = .event order event → subject event ≠ c) :
    call.opens (without c known) = without c (call.opens known) := by
  cases call with
  | event order event =>
    cases event with
    | newConnection conn hello =>
      have hne : conn ≠ c := hc order _ rfl
      simp [Call.opens, without, hne]
    | _ => rfl
  | _ => rfl

theorem legal_without {calls : List Call} (h : Legal known calls) (hc : Silent c calls) :
    Legal (without c known) calls := by
  induction calls generalizing known with
  | nil => trivial
  | cons call calls ih =>
    have hfirst : ∀ order event, call = .event order event → subject event ≠ c :=
      fun order event he => hc order event (he ▸ List.mem_cons_self)
    refine ⟨allowed_without h.1 hfirst, ?_⟩
    rw [opens_without hfirst]
    exact ih h.2 (fun order event hmem => hc order event (List.mem_cons_of_mem _ hmem))

theorem opened_without {calls : List Call} (hc : Silent c calls) :
    opened (without c known) calls = without c (opened known calls) := by
  induction calls generalizing known with
  | nil => rfl
  | cons call calls ih =>
    have hfirst : ∀ order event, call = .event order event → subject event ≠ c :=
      fun order event he => hc order event (he ▸ List.mem_cons_self)
    show opened (call.opens (without c known)) calls = without c (opened (call.opens known) calls)
    rw [opens_without hfirst]
    exact ih (fun order event hmem => hc order event (List.mem_cons_of_mem _ hmem))

end Silence

section Runs

variable {pc : Postcard} (accepts : Nat → Bool)

/-- `Disconnected` is the last event of `c`, after `pre`. -/
def Last (c : ConnectionId) (inputs pre : List Input) (order : HashOrder) : Prop :=
  ∃ post, inputs = pre ++ ⟨.disconnected c, order⟩ :: post ∧ ∀ i ∈ post, subject i.event ≠ c

theorem absent_after (hpc : pc.ControlRoundTrip) {inputs pre : List Input} {c : ConnectionId}
    {order : HashOrder} (horderly : Orderly [] inputs) (hlast : Last c inputs pre order)
    {mid : List Call}
    (hmid : runCalls pc accepts Server.new pre ++ .event order (.disconnected c) :: mid <+:
      runCalls pc accepts Server.new inputs) :
    Absent c (execs pc accepts
      (runCalls pc accepts Server.new pre ++ .event order (.disconnected c) :: mid)
      Server.new) := by
  obtain ⟨post, rfl, hpost⟩ := hlast
  have hlegal := legal_initially hmid (legal_runCalls pc accepts Server.new horderly)
  obtain ⟨hpre, -, hrest⟩ := (legal_append _ _ _).mp hlegal
  have hsilent : Silent c mid := by
    intro order' event hevent
    rw [runCalls_append, List.prefix_append_right_inj, runCalls, stepCalls, List.cons_append,
      List.prefix_cons_inj] at hmid
    obtain hevent | hevent := List.mem_append.mp (hmid.subset hevent)
    · split at hevent
      · cases hevent
      · simp at hevent
    · exact hpost _ (mem_runCalls pc accepts hevent)
  have hgone := settled_disconnect accepts hpc (settled_execs accepts hpc settled_new hpre) order c
  have hafter := settled_execs accepts hpc hgone (legal_without hrest hsilent)
  rw [execs_append, execs_cons]
  refine hafter.absent ?_
  rw [opened_without hsilent]
  exact fun hmem => (mem_without.mp hmem).2 rfl

theorem eq_empty {K V : Type} [DecidableEq K] {t : Table K V} (h : ∀ k, k ∉ t) : t = ∅ := by
  apply AList.ext
  refine List.eq_nil_iff_forall_not_mem.mpr (fun e he => ?_)
  exact h e.1 (AList.mem_keys.mpr (List.mem_map_of_mem he))

theorem Settled.vacant {known : List ConnectionId} {s : ServerState} (h : Settled known s)
    (habsent : ∀ c ∈ known, Absent c s) : Vacant s := by
  have hwriters : ∀ c, c ∉ s.writers :=
    fun c hc => (habsent c (h.sound.within.writers c hc)).writer hc
  have haddresses : ∀ c, c ∉ s.connAddresses := fun c hc => hwriters c (h.addresses c hc)
  refine ⟨eq_empty fun u hu => ?_, eq_empty fun k hk => ?_, eq_empty fun c hc => ?_,
    eq_empty hwriters, eq_empty haddresses,
    eq_empty fun c hc => haddresses c (h.books.registered c hc), eq_empty fun w hw => ?_⟩
  · obtain ⟨ps, hps⟩ := mem_iff_lookup.mp hu
    obtain ⟨p, hp⟩ := List.exists_mem_of_ne_nil ps (h.stocked u ps hps)
    exact (habsent p (h.sound.within.providers u ps p hps hp)).providers u ps hps hp
  · obtain ⟨r, hr⟩ := mem_iff_lookup.mp hk
    exact ((habsent k.1 (h.sound.within.routes k r hr)).routes k r hr).1 rfl
  · exact (habsent c (h.sound.within.counters c hc)).counter hc
  · obtain ⟨c, hc⟩ := h.books.tightWatchers.exists_listed hw
    exact haddresses c (h.books.registered c (mem_of_listed ((h.books.mirrored c w).mpr hc)))

theorem joined_of_mem_opened {known : List ConnectionId} {c : ConnectionId} {calls : List Call}
    (h : c ∈ opened known calls) :
    c ∈ known ∨ ∃ order hello, .event order (.newConnection c hello) ∈ calls := by
  induction calls generalizing known with
  | nil => exact .inl h
  | cons call calls ih =>
    obtain hc | ⟨order, hello, hmem⟩ := ih h
    · unfold Call.opens at hc
      split at hc
      · next order conn hello =>
        obtain rfl | hc := List.mem_cons.mp hc
        · exact .inr ⟨order, hello, List.mem_cons_self⟩
        · exact .inl hc
      · exact .inl hc
    · exact .inr ⟨order, hello, List.mem_cons_of_mem _ hmem⟩

theorem vacant_after (hpc : pc.ControlRoundTrip) {inputs : List Input}
    (horderly : Orderly [] inputs)
    (hgone : ∀ i ∈ inputs, ∃ pre order, Last (subject i.event) inputs pre order) :
    Vacant (actorLoop pc accepts inputs) := by
  have hlegal := legal_runCalls pc accepts Server.new horderly
  have hsettled := settled_execs accepts hpc settled_new hlegal
  rw [← actorLoop_eq] at hsettled
  refine hsettled.vacant (fun c hc => ?_)
  obtain hc | ⟨order, hello, hjoin⟩ := joined_of_mem_opened hc
  · cases hc
  obtain ⟨pre, order, hlast⟩ := hgone _ (mem_runCalls pc accepts hjoin)
  have hcalls : ∃ mid, runCalls pc accepts Server.new inputs =
      runCalls pc accepts Server.new pre ++ .event order (.disconnected c) :: mid := by
    obtain ⟨post, rfl, -⟩ := hlast
    exact ⟨_, runCalls_append pc accepts pre _ _⟩
  obtain ⟨mid, hmid⟩ := hcalls
  rw [actorLoop_eq, hmid]
  exact absent_after accepts hpc horderly hlast (hmid ▸ List.prefix_refl _)

variable (pc) in
/-- When the last event of a connection has been processed, none of the tables ever
speaks of it again, and they are empty when this holds of all connections. At any
point a second removal of a connection right after the first does nothing. -/
theorem disconnect_final (hpc : pc.ControlRoundTrip) (inputs : List Input)
    (horderly : Orderly [] inputs) :
    (∀ c pre order mid, Last c inputs pre order →
      runCalls pc accepts Server.new pre ++ .event order (.disconnected c) :: mid <+:
        runCalls pc accepts Server.new inputs →
      Absent c (execs pc accepts
        (runCalls pc accepts Server.new pre ++ .event order (.disconnected c) :: mid)
        Server.new)) ∧
    ((∀ i ∈ inputs, ∃ pre order, Last (subject i.event) inputs pre order) →
      Vacant (actorLoop pc accepts inputs)) ∧
    ∀ cs, cs <+: runCalls pc accepts Server.new inputs → ∀ c order order',
      Unmoved ((execs pc accepts cs Server.new).processDisconnect pc accepts order c)
        (((execs pc accepts cs Server.new).processDisconnect pc accepts order
          c).processDisconnect pc accepts order' c) := by
  refine ⟨fun c pre order mid hlast hmid => absent_after accepts hpc horderly hlast hmid,
    vacant_after accepts hpc horderly, fun cs hcs c order order' => ?_⟩
  have hlegal := legal_initially hcs (legal_runCalls pc accepts Server.new horderly)
  have hfirst := settled_disconnect accepts hpc (settled_execs accepts hpc settled_new hlegal) order c
  have habsent := hfirst.absent (fun hmem => (mem_without.mp hmem).2 rfl)
  exact unmoved_disconnect pc accepts habsent hfirst.stocked order'

def farewells : List Input :=
  handshake ++ [⟨.frame ⟨2⟩ 0 (controlMessage.encode (.watch (Address.local 1))), .stored⟩,
    ⟨.frame ⟨2⟩ 0 (controlMessage.encode (.watch (Address.local 2))), .stored⟩,
    ⟨.disconnected ⟨1⟩, .stored⟩, ⟨.disconnected ⟨2⟩, .stored⟩]

theorem disconnect_final_farewells :
    Orderly [] farewells ∧ Vacant (actorLoop postcard (fun _ => true) farewells) := by
  have horderly : Orderly [] farewells := by simp [farewells, handshake, Orderly]
  have hfirst : Last ⟨1⟩ farewells (farewells.take 5) .stored :=
    ⟨[⟨.disconnected ⟨2⟩, .stored⟩], rfl, by simp [subject]⟩
  have hsecond : Last ⟨2⟩ farewells (farewells.take 6) .stored := ⟨[], rfl, by simp⟩
  refine ⟨horderly, (disconnect_final postcard (fun _ => true) postcard_control farewells
    horderly).2.1 (fun i hi => ?_)⟩
  have hwho : subject i.event = ⟨1⟩ ∨ subject i.event = ⟨2⟩ := by
    simp only [farewells, handshake, List.cons_append, List.nil_append, List.mem_cons,
      List.not_mem_nil, or_false] at hi
    obtain rfl | rfl | rfl | rfl | rfl | rfl | rfl := hi <;> simp [subject]
  obtain h | h := hwho <;> rw [h]
  · exact ⟨_, _, hfirst⟩
  · exact ⟨_, _, hsecond⟩

end Runs

end Pane.Departures
