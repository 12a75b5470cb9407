import Pane.Overflow
import Pane.Watches

namespace Pane.GhostConnections

open Pane.HashTable Pane.Messages Pane.Routing Pane.Server Pane.ServerFrame Pane.ServerActor
open Pane.RouteSymmetry Pane.RouteRemoval Pane.RouteTable Pane.Offers Pane.RoutePipes
open Pane.Attempts Pane.Overflow Pane.Watches Pane.PostcardFormat

variable (pc : Postcard) (accepts : Nat → Bool)

section Routing

variable {known : List ConnectionId} {s : RoutingState} {conn : ConnectionId}

theorem retainProviders_drops {index : Table Uuid (List ConnectionId)} {services : List Uuid}
    {u : Uuid} {ps : List ConnectionId} (hu : u ∈ services)
    (h : (services.foldl (RoutingState.retainProviders conn) index).lookup u = some ps) :
    conn ∉ ps := by
  induction services generalizing index with
  | nil => cases hu
  | cons service services ih =>
    obtain rfl | hu := List.mem_cons.mp hu
    · intro hmem
      rw [List.foldl_cons] at h
      obtain ⟨qs, hqs, hin⟩ := lookup_retainProviders conn h hmem
      unfold RoutingState.retainProviders at hqs
      cases hl : index.lookup u with
      | none =>
        rw [hl] at hqs
        cases hl.symm.trans hqs
      | some providers =>
        rw [hl] at hqs
        dsimp only at hqs
        split at hqs
        · rw [lookup_erase, if_pos rfl] at hqs
          cases hqs
        · rw [lookup_insert, if_pos rfl] at hqs
          obtain rfl := Option.some.inj hqs
          simp at hin
    · exact ih hu h

theorem within_filter_removed (hs : Symmetric s) (hw : Within known s) (order : Order Endpoint)
    (conn : ConnectionId) :
    Within (known.filter (fun c => c ≠ conn)) (s.removeConnection order conn).2 := by
  have hmem : ∀ {c}, c ∈ known → c ≠ conn → c ∈ known.filter (fun c => c ≠ conn) :=
    fun hc hne => List.mem_filter.mpr ⟨hc, decide_eq_true hne⟩
  refine ⟨fun k r hk => ?_, fun c hc => ?_, fun u ps c hu hc => ?_, fun c hc => ?_⟩
  · obtain ⟨hk, hgone⟩ := (lookup_removeConnection hs order conn k r).mp hk
    exact hmem (hw.routes k r hk) (fun he => hgone ((peer_conn_iff hs hk).mp (.inl he)))
  · obtain ⟨hne, hc⟩ := AList.mem_erase.mp hc
    exact hmem (hw.counters c hc) hne
  · obtain ⟨qs, hqs, hcq⟩ := lookup_retainProviders c hu hc
    have hu' : u ∈ s.providerIndex.keys := AList.mem_keys.mp (mem_of_lookup hqs)
    refine hmem (hw.providers u qs c hqs hcq) ?_
    rintro rfl
    exact retainProviders_drops hu' hu hc
  · obtain ⟨hne, hc⟩ := AList.mem_erase.mp hc
    exact hmem (hw.writers c hc) hne

theorem within_removed (hs : Symmetric s) (hw : Within s.writers.keys s) (order : Order Endpoint)
    (conn : ConnectionId) :
    Within (s.removeConnection order conn).2.writers.keys (s.removeConnection order conn).2 := by
  refine (within_filter_removed hs hw order conn).mono fun {c} hc => ?_
  obtain ⟨hc, hne⟩ := List.mem_filter.mp hc
  rw [← AList.mem_keys]
  exact AList.mem_erase.mpr ⟨of_decide_eq_true hne, AList.mem_keys.mpr hc⟩

theorem within_reroutes {known' : List ConnectionId} {s' : RoutingState} (hs : Symmetric s)
    (hw : Within s.writers.keys s) (hr : Reroutes s.writers.keys s known' s') :
    Within s'.writers.keys s' := by
  cases hr with
  | keep => exact hw
  | connect conn provides hc =>
    refine (within_connect hw provides).mono fun {c} hc => ?_
    rw [← AList.mem_keys]
    obtain rfl | hc := List.mem_cons.mp hc
    · exact (AList.mem_insert _).mpr (.inl rfl)
    · exact (AList.mem_insert _).mpr (.inr (AList.mem_keys.mpr hc))
  | declare conn service hc =>
    rw [writers_declare]
    exact within_declare hs hw hc service
  | revoke conn sessionId =>
    rw [writers_revoke]
    exact within_revoke hs hw conn sessionId
  | remove order conn => exact within_removed hs hw order conn

end Routing

def applicant (c : Call) : Option ConnectionId :=
  match controlOf pc c with
  | some (conn, .declareInterest _ _) => some conn
  | some (conn, .watch _) => some conn
  | _ => none

/-- Who declares an interest or watches a pane has a writer. -/
def Attended (s : ServerState) (c : Call) : Prop := ∀ conn ∈ applicant pc c, conn ∈ s.writers

instance (s : ServerState) (c : Call) : Decidable (Attended pc s c) :=
  inferInstanceAs (Decidable (∀ conn ∈ applicant pc c, conn ∈ s.writers))

/-- Every connection that the server has heard of and not removed has a writer,
and it is in the tables with connections of this kind only. -/
structure Manned (known : List ConnectionId) (s : ServerState) : Prop extends Addressed known s where
  routing : Within s.writers.keys s.toRoutingState
  watchers : ∀ c w, Listed s.watchTable c w → w ∈ s.writers

theorem manned_new : Manned [] Server.new := by
  refine ⟨addressed_new, within_new, ?_⟩
  rintro c w ⟨set, hset, -⟩
  cases hset

variable {pc}

theorem manned_watchers {known : List ConnectionId} {s : ServerState} {c : Call}
    (h : Manned known s) (hattended : Attended pc s c)
    (hr : Rewatches pc (registry s) c (registry (exec pc accepts s c))) (d w : ConnectionId)
    (hd : Listed (exec pc accepts s c).watchTable d w) : w ∈ (exec pc accepts s c).writers := by
  rw [mem_writers_exec]
  change Listed (registry (exec pc accepts s c)).watchTable d w at hd
  generalize registry (exec pc accepts s c) = r at hr hd
  cases hr with
  | join conn hc => exact .inr ⟨h.watchers d w hd, by simp [leaving_of_joining hc]⟩
  | leave conn hc hremoves =>
    obtain ⟨hd, -, hne⟩ := (hremoves.watched d w).mp hd
    exact .inr ⟨h.watchers d w hd, by rw [hc]; exact fun he => hne (Option.some.inj he).symm⟩
  | watch conn targetConn target hc ht =>
    refine .inr ⟨?_, by simp [leaving_of_controlOf hc]⟩
    obtain ⟨-, rfl⟩ | hd := listed_addMember.mp hd
    · exact hattended w (by simp [applicant, hc])
    · exact h.watchers d w hd
  | unwatch conn targetConn target hc ht =>
    exact .inr ⟨h.watchers d w (listed_dropMember.mp hd).1, by simp [leaving_of_controlOf hc]⟩
  | keep hj hl ht => exact .inr ⟨h.watchers d w hd, by simp [hl]⟩

theorem within_exec {known : List ConnectionId} {s : ServerState} {c : Call}
    (hs : Sound known s.toRoutingState) (hw : Within s.writers.keys s.toRoutingState)
    (hc : c.Allowed known) (hdeclare : ∀ conn service version,
      controlOf pc c = some (conn, .declareInterest service version) → conn ∈ s.writers) :
    Within (exec pc accepts s c).writers.keys (exec pc accepts s c).toRoutingState := by
  have hreroutes : Reroutes s.writers.keys s.toRoutingState (c.opens s.writers.keys)
      (exec pc accepts s c).toRoutingState := by
    apply exec_reroutes_of pc accepts
    · intro conn hjoin hmem
      exact joining_notMem hc hjoin (hs.within.writers conn (AList.mem_keys.mpr hmem))
    · intro conn service version hcontrol
      exact AList.mem_keys.mp (hdeclare conn service version hcontrol)
  exact within_reroutes hs.symmetric hw hreroutes

theorem manned_exec (hpc : pc.ControlRoundTrip) {known : List ConnectionId} {s : ServerState}
    {c : Call} (h : Manned known s) (hc : c.Allowed known) (hattended : Attended pc s c) :
    Manned (c.opens known) (exec pc accepts s c) := by
  refine ⟨addressed_exec accepts hpc h.toAddressed hc, within_exec accepts h.sound h.routing hc ?_,
    manned_watchers accepts h hattended (exec_rewatches accepts hpc h.books c)⟩
  intro conn service version hdeclare
  apply hattended
  simp [applicant, hdeclare]

theorem manned_execs (hpc : pc.ControlRoundTrip) {known : List ConnectionId} {s : ServerState}
    {cs : List Call} (h : Manned known s) (hcs : Legal known cs)
    (hattended : ∀ p ∈ history pc accepts s cs, Attended pc p.1 p.2) :
    Manned (opened known cs) (execs pc accepts cs s) := by
  induction cs generalizing known s with
  | nil => exact h
  | cons c cs ih =>
    have hfirst := hattended (s, c) List.mem_cons_self
    exact ih (manned_exec accepts hpc h hcs.1 hfirst) hcs.2
      (fun p hp => hattended p (List.mem_cons_of_mem _ hp))

/-- Every connection that one of the tables mentions has a writer. -/
structure Housed (s : ServerState) : Prop where
  providers : ∀ u ps c, s.providerIndex.lookup u = some ps → c ∈ ps → c ∈ s.writers
  counters : ∀ c, c ∈ s.nextSession → c ∈ s.writers
  addresses : ∀ c, c ∈ s.connAddresses → c ∈ s.writers
  routes : ∀ k r, s.routingTable.lookup k = some r →
    k.1 ∈ s.writers ∧ r.consumerConn ∈ s.writers ∧ r.providerConn ∈ s.writers
  watched : ∀ c set, s.watchTable.lookup c = some set →
    c ∈ s.writers ∧ ∀ w ∈ set, w ∈ s.writers
  watchers : ∀ w set, s.watcherReverse.lookup w = some set →
    w ∈ s.writers ∧ ∀ c ∈ set, c ∈ s.writers

theorem Manned.housed {known : List ConnectionId} {s : ServerState} (h : Manned known s) :
    Housed s := by
  have hkey : ∀ k r, s.routingTable.lookup k = some r → k.1 ∈ s.writers :=
    fun k r hk => AList.mem_keys.mpr (h.routing.routes k r hk)
  have hregistered : ∀ {c}, c ∈ s.watchTable → c ∈ s.writers :=
    fun hc => h.addresses _ (h.books.registered _ hc)
  refine ⟨fun u ps c hu hc => ?_, fun c hc => ?_, h.addresses, fun k r hk => ?_,
    fun c set hset => ?_, fun w set hset => ?_⟩
  · exact AList.mem_keys.mpr (h.routing.providers u ps c hu hc)
  · exact AList.mem_keys.mpr (h.routing.counters c hc)
  · exact ⟨hkey k r hk, hkey _ r (h.sound.symmetric.consumer k r hk),
      hkey _ r (h.sound.symmetric.provider k r hk)⟩
  · exact ⟨hregistered (mem_of_lookup hset), fun w hw => h.watchers c w ⟨set, hset, hw⟩⟩
  · have hback : ∀ c ∈ set, Listed s.watchTable c w :=
      fun c hc => (h.books.mirrored c w).mpr ⟨set, hset, hc⟩
    obtain ⟨c, hc⟩ := h.books.tightWatchers w set hset
    exact ⟨h.watchers c w (hback c hc), fun c hc => hregistered (mem_of_listed (hback c hc))⟩

variable (pc) in
def granted (p : ServerState × Call) : List Endpoint :=
  match controlOf pc p.2 with
  | some (conn, .declareInterest service _) =>
    match (p.1.handleDeclareInterest conn service).1 with
    | .ok (.interestAccepted _ session _, provider, providerSession) =>
      [(conn, session), (provider, providerSession)]
    | _ => []
  | _ => []

/-- The sessions handed out so far: no two are the same, and of a connection
that has a writer they are below its counter. -/
structure Spent (known : List ConnectionId) (s : RoutingState) (es : List Endpoint) : Prop where
  nodup : es.Nodup
  known : ∀ e ∈ es, e.1 ∈ known
  below : ∀ e ∈ es, e.1 ∈ s.writers → e.2 < s.nextOf e.1

theorem toRoutingState_declaration {s : ServerState} {c : Call} {conn : ConnectionId}
    {service : Uuid} {version : UInt32}
    (h : controlOf pc c = some (conn, .declareInterest service version)) :
    (exec pc accepts s c).toRoutingState = (s.handleDeclareInterest conn service).2 := by
  obtain ⟨order, payload, rfl, hmsg⟩ := controlOf_eq_some h
  simp [exec, processEvent, ServerState.processFrame, ServerState.processControl, hmsg]

variable (pc) in
theorem granted_cases (s : ServerState) (c : Call) :
    granted pc (s, c) = [] ∨ ∃ conn p,
      granted pc (s, c) = [(conn, s.nextOf conn), (p, s.nextOf p)] ∧ conn ∈ applicant pc c ∧
      (∃ u ps, s.providerIndex.lookup u = some ps ∧ p ∈ ps) ∧ p ≠ conn ∧
      s.nextOf conn ≠ 0xFFFF ∧ s.nextOf p ≠ 0xFFFF ∧
      (exec pc accepts s c).toRoutingState = s.link conn p := by
  unfold granted
  split
  · next conn service version hcontrol =>
    obtain ⟨_, he⟩ | ⟨-, he⟩ | ⟨p, hp, hne, hconn, ⟨-, he⟩ | ⟨hprovider, he⟩⟩ :=
      RoutingState.handleDeclareInterest_cases conn service s.toRoutingState
    · exact .inl (by rw [he])
    · exact .inl (by rw [he])
    · exact .inl (by rw [he])
    · refine .inr ⟨conn, p, by rw [he], by simp [applicant, hcontrol], ?_, hne, hconn, hprovider,
        ?_⟩
      · obtain ⟨ps, hps, hhead⟩ := Option.bind_eq_some_iff.mp hp
        exact ⟨service, ps, hps, List.mem_of_head? hhead⟩
      · rw [toRoutingState_declaration accepts hcontrol, he]
  · exact .inl rfl

theorem applicant_known {known : List ConnectionId} {c : Call} {conn : ConnectionId}
    (h : conn ∈ applicant pc c) (hc : c.Allowed known) : conn ∈ known := by
  have hsender : ∀ {msg}, controlOf pc c = some (conn, msg) → conn ∈ known := by
    intro msg hmsg
    obtain ⟨order, payload, rfl, -⟩ := controlOf_eq_some hmsg
    exact hc
  unfold applicant at h
  split at h
  · next hmsg =>
    cases h
    exact hsender hmsg
  · next hmsg =>
    cases h
    exact hsender hmsg
  · cases h

theorem below_exec {known : List ConnectionId} {s : ServerState} {c : Call} {es : List Endpoint}
    (h : Sound known s.toRoutingState) (hc : c.Allowed known) (hknown : ∀ e ∈ es, e.1 ∈ known)
    (hbelow : ∀ e ∈ es, e.1 ∈ s.writers → e.2 < s.nextOf e.1) :
    (∀ e ∈ es ++ granted pc (s, c), e.1 ∈ c.opens known) ∧
    ∀ e ∈ es ++ granted pc (s, c), e.1 ∈ (exec pc accepts s c).writers →
      e.2 < (exec pc accepts s c).nextOf e.1 := by
  have hreroutes := exec_reroutes pc accepts s c hc
  have hold : ∀ e ∈ es, e.1 ∈ (exec pc accepts s c).writers →
      e.2 < (exec pc accepts s c).nextOf e.1 := by
    intro e he hw
    have hbefore := writers_reroutes hreroutes (hknown e he) hw
    exact (lookup_reroutes h hreroutes hw (hbelow e he hbefore)).1
  obtain hnone | ⟨conn, p, hgranted, hconn, ⟨u, ps, hu, hp⟩, hne, hfirst, hsecond, hlink⟩ :=
    granted_cases pc accepts s c
  · rw [hnone, List.append_nil]
    exact ⟨fun e he => mem_opens c (hknown e he), hold⟩
  rw [hgranted]
  refine ⟨fun e he => mem_opens c ?_, fun e he hw => ?_⟩
  · obtain he | he := List.mem_append.mp he
    · exact hknown e he
    · obtain rfl | he := List.mem_cons.mp he
      · exact applicant_known hconn hc
      · obtain rfl := List.mem_singleton.mp he
        exact h.within.providers u ps p hu hp
  · obtain he | he := List.mem_append.mp he
    · exact hold e he hw
    · rw [hlink]
      obtain rfl | he := List.mem_cons.mp he
      · rw [nextOf_link hne, if_pos (.inr rfl)]
        exact (one_le_add_one hfirst).2
      · obtain rfl := List.mem_singleton.mp he
        rw [nextOf_link hne, if_pos (.inl rfl)]
        exact (one_le_add_one hsecond).2

theorem spent_exec {known : List ConnectionId} {s : ServerState} {c : Call}
    {es : List Endpoint} (h : Manned known s) (hspent : Spent known s.toRoutingState es)
    (hc : c.Allowed known) (hattended : Attended pc s c) :
    Spent (c.opens known) (exec pc accepts s c).toRoutingState (es ++ granted pc (s, c)) := by
  obtain ⟨hknown, hbelow⟩ := below_exec accepts h.sound hc hspent.known hspent.below
  refine ⟨?_, hknown, hbelow⟩
  obtain hnone | ⟨conn, p, hgranted, hconn, ⟨u, ps, hu, hp⟩, hne, -⟩ :=
    granted_cases pc accepts s c
  · rw [hnone, List.append_nil]
    exact hspent.nodup
  -- a session that is about to be handed out is not below the counter
  have hnew : ∀ d ∈ s.writers, (d, s.nextOf d) ∉ es :=
    fun d hd hmem => UInt16.lt_irrefl _ (hspent.below _ hmem hd)
  rw [hgranted]
  refine List.Nodup.append hspent.nodup ?_ ?_
  · simp [hne.symm]
  · intro e he hmem
    obtain rfl | he' := List.mem_cons.mp hmem
    · exact hnew conn (hattended conn hconn) he
    · obtain rfl := List.mem_singleton.mp he'
      exact hnew p (AList.mem_keys.mpr (h.routing.providers u ps p hu hp)) he

theorem spent_execs (hpc : pc.ControlRoundTrip) {known : List ConnectionId} {s : ServerState}
    {cs : List Call} {es : List Endpoint} (h : Manned known s)
    (hspent : Spent known s.toRoutingState es) (hcs : Legal known cs)
    (hattended : ∀ p ∈ history pc accepts s cs, Attended pc p.1 p.2) :
    (es ++ (history pc accepts s cs).flatMap (granted pc)).Nodup := by
  induction cs generalizing known s es with
  | nil =>
    rw [history, List.flatMap_nil, List.append_nil]
    exact hspent.nodup
  | cons c cs ih =>
    have hfirst := hattended (s, c) List.mem_cons_self
    rw [history, List.flatMap_cons, ← List.append_assoc]
    exact ih (manned_exec accepts hpc h hcs.1 hfirst) (spent_exec accepts h hspent hcs.1 hfirst)
      hcs.2 (fun p hp => hattended p (List.mem_cons_of_mem _ hp))

variable (pc) in
/-- There are no ghost connections while nobody without a writer declares an
interest or watches a pane: all tables speak of connections with a writer, no
session is handed out twice, and a connection that was removed stays away. -/
theorem no_ghost_connections (hpc : pc.ControlRoundTrip) (inputs : List Input)
    (horderly : Orderly [] inputs)
    (hattended : ∀ p ∈ history pc accepts Server.new (runCalls pc accepts Server.new inputs),
      Attended pc p.1 p.2) :
    (∀ pre, pre <+: inputs → Housed (actorLoop pc accepts pre)) ∧
    ((history pc accepts Server.new (runCalls pc accepts Server.new inputs)).flatMap
      (granted pc)).Nodup ∧
    ∀ pre mid post d, inputs = pre ++ mid ++ post → d ∈ (actorLoop pc accepts pre).writers →
      d ∉ (actorLoop pc accepts (pre ++ mid)).writers →
      d ∉ (actorLoop pc accepts inputs).writers := by
  have hlegal := legal_runCalls pc accepts Server.new horderly
  refine ⟨?_, ?_, ?_⟩
  · rintro pre ⟨post, rfl⟩
    rw [runCalls_append] at hlegal hattended
    obtain ⟨hpre, -⟩ := (legal_append _ _ _).mp hlegal
    rw [actorLoop_eq]
    refine (manned_execs accepts hpc manned_new hpre (fun p hp => ?_)).housed
    apply hattended
    rw [history_append]
    exact List.mem_append_left _ hp
  · have hnone : Spent [] Server.new.toRoutingState [] := ⟨List.nodup_nil, by simp, by simp⟩
    simpa using spent_execs accepts hpc manned_new hnone hlegal hattended
  · rintro pre mid post d rfl hbefore hgone hafter
    rw [runCalls_append] at hlegal
    obtain ⟨hfirst, hrest⟩ := (legal_append _ _ _).mp hlegal
    rw [actorLoop, List.foldl_append, foldl_actorStep] at hafter
    rw [runCalls_append] at hfirst
    obtain ⟨hpre, -⟩ := (legal_append _ _ _).mp hfirst
    rw [actorLoop_eq] at hbefore
    have hknown := (sound_execs pc accepts sound_new hpre).within.writers d hbefore
    apply hgone
    refine writers_execs pc accepts hrest ?_ hafter
    rw [runCalls_append, opened, List.foldl_append]
    exact mem_opened _ hknown

theorem no_ghost_connections_watched :
    Orderly [] watched ∧ Housed (actorLoop postcard (fun _ => true) watched) ∧
    ⟨1⟩ ∈ (actorLoop postcard (fun _ => true) watched).watchTable := by
  have h : Orderly [] watched := by simp [watched, handshake, Orderly]
  have hghosts := no_ghost_connections postcard (fun _ => true) postcard_control watched h
    (by decide +kernel)
  exact ⟨h, hghosts.1 watched (List.prefix_refl _), by decide +kernel⟩

def interest : Input :=
  ⟨.frame ⟨2⟩ 0 (controlMessage.encode (.declareInterest clipboard 1)), .stored⟩

/-- The provider fills the channel of the consumer and sends one frame more.
The declaration that the consumer sent before is processed after that. -/
def ghost : List Input := handshake ++ flood ++ [⟨.frame ⟨1⟩ 1 [8], .stored⟩, interest]

def eviction : List Call :=
  [.event .stored (.frame ⟨1⟩ 1 [8]), .drain, .tearDown .stored ⟨2⟩]

def brink : ServerState := flooded (actorLoop postcard fullAt handshake)

theorem length_handshake : (actorLoop postcard fullAt handshake).attempts.length = 2 := by
  decide +kernel

theorem actorLoop_brink : actorLoop postcard fullAt (handshake ++ flood) = brink :=
  actorLoop_flood postcard length_handshake (by decide +kernel) (by decide +kernel)
    (by decide +kernel)

theorem orderly_handshake (rest : List Input) (h : Orderly [⟨2⟩, ⟨1⟩] rest) :
    Orderly [] (handshake ++ (flood ++ rest)) := by
  have hflood := orderly_flood 1 [7] .stored 4095 (by decide : (⟨1⟩ : ConnectionId) ∈ [⟨2⟩, ⟨1⟩]) h
  exact ⟨by decide, by decide, by decide, hflood⟩

theorem answered_brink : Answered fullAt brink := by
  rw [← actorLoop_brink]
  exact answered_actorLoop postcard fullAt _

theorem sound_brink : ∃ known, Sound known brink.toRoutingState := by
  have horderly := orderly_handshake [] trivial
  rw [List.append_nil] at horderly
  have hsound := sound_actorLoop postcard fullAt horderly
  rwa [actorLoop_brink] at hsound

theorem length_brink : brink.attempts.length = 4097 := length_flooded length_handshake

theorem length_offered {known : List ConnectionId} (hsound : Sound known brink.toRoutingState)
    {cs : List Call} (hlegal : Legal known cs) {n : Nat}
    (hoffers : (offersOf postcard fullAt brink cs).length = n) :
    (execs postcard fullAt cs brink).attempts.length = 4097 + n := by
  rw [attempts_of_calls postcard fullAt hsound hlegal answered_brink, List.length_append,
    length_answered, hoffers, length_brink]

theorem runCalls_eviction :
    runCalls postcard fullAt brink [⟨.frame ⟨1⟩ 1 [8], .stored⟩, interest] =
      eviction ++ [.event .stored interest.event] := by
  obtain ⟨known, hsound⟩ := sound_brink
  have hknown : ⟨1⟩ ∈ known := hsound.within.writers ⟨1⟩ (by decide +kernel)
  have hlegal : Legal known eviction := ⟨hknown, trivial, trivial, trivial⟩
  have hlost := sound_execs postcard fullAt hsound hlegal
  have hfirst : stepCalls postcard fullAt brink ⟨.frame ⟨1⟩ 1 [8], .stored⟩ = eviction := by
    have hrefused : refusals (answered fullAt brink.attempts.length (offers postcard brink
        (.event .stored (.frame ⟨1⟩ 1 [8])))) = [⟨2⟩] := by
      rw [length_brink]
      decide +kernel
    exact stepCalls_of_refusals postcard fullAt hsound.symmetric answered_brink (by decide +kernel)
      ⟨.frame ⟨1⟩ 1 [8], .stored⟩ hrefused
  -- nobody else overflows while the consumer is removed
  have hoverflow : (execs postcard fullAt eviction brink).overflowTeardown = [] := by
    have hdrain : Legal known [.event .stored (.frame ⟨1⟩ 1 [8]), .drain] :=
      ⟨hknown, trivial, trivial⟩
    have hcall := overflowed_of_call postcard fullAt (c := .tearDown .stored ⟨2⟩)
      (sound_execs postcard fullAt hsound hdrain).symmetric
      (answered_execs postcard fullAt answered_brink _) nofun
    rw [length_offered hsound hdrain (n := 1) (by decide +kernel)] at hcall
    refine hcall.trans ?_
    decide +kernel
  have hsecond : stepCalls postcard fullAt (execs postcard fullAt eviction brink) interest =
      [.event .stored interest.event] := by
    have hrefused : refusals (answered fullAt (execs postcard fullAt eviction brink).attempts.length
        (offers postcard (execs postcard fullAt eviction brink) (.event .stored interest.event))) =
          [] := by
      rw [length_offered hsound hlegal (n := 2) (by decide +kernel)]
      decide +kernel
    exact stepCalls_of_refusals postcard fullAt hlost.symmetric
      (answered_execs postcard fullAt answered_brink _) hoverflow interest hrefused
  rw [runCalls, runCalls, runCalls, actorStep_eq, hfirst, hsecond, List.append_nil]

def hauntings : List Attempt :=
  [⟨⟨⟨2⟩, 1, [8]⟩, false⟩,
    ⟨⟨⟨1⟩, 0, controlMessage.encode (.serviceTeardown 1 .connectionLost)⟩, true⟩,
    ⟨⟨⟨1⟩, 0, controlMessage.encode (.interestAccepted clipboard 2 1)⟩, true⟩]

theorem actorLoop_ghost : actorLoop postcard fullAt ghost =
    execs postcard fullAt (eviction ++ [.event .stored interest.event]) brink := by
  rw [ghost, actorLoop, List.foldl_append, ← actorLoop, actorLoop_brink, foldl_actorStep,
    runCalls_eviction]

theorem attempts_ghost : (actorLoop postcard fullAt ghost).attempts = brink.attempts ++ hauntings := by
  obtain ⟨known, hsound⟩ := sound_brink
  have hknown : ∀ d ∈ [⟨1⟩, ⟨2⟩], d ∈ known :=
    fun d hd => hsound.within.writers d ((by decide +kernel : ∀ d ∈ [⟨1⟩, ⟨2⟩], d ∈ brink.writers) d hd)
  have hlegal : Legal known (eviction ++ [.event .stored interest.event]) :=
    ⟨hknown ⟨1⟩ (by decide), trivial, trivial, hknown ⟨2⟩ (by decide), trivial⟩
  rw [actorLoop_ghost, attempts_of_calls postcard fullAt hsound hlegal answered_brink, length_brink]
  exact congrArg _ (by decide +kernel)

/-- A connection that was torn down for overflow is in the tables again, and has
been given a session that it had before. -/
theorem ghost_connection :
    Orderly [] ghost ∧ Bounded (actorLoop postcard fullAt ghost).attempts ∧
    ⟨2⟩ ∉ (actorLoop postcard fullAt ghost).writers ∧
    ⟨2⟩ ∈ (actorLoop postcard fullAt ghost).nextSession ∧
    (actorLoop postcard fullAt ghost).routingTable.lookup (⟨2⟩, 1) = some ⟨⟨2⟩, 1, ⟨1⟩, 2⟩ ∧
    ¬ Housed (actorLoop postcard fullAt ghost) ∧
    ¬ ((history postcard fullAt Server.new (runCalls postcard fullAt Server.new ghost)).flatMap
      (granted postcard)).Nodup := by
  have hnowriter : ⟨2⟩ ∉ (actorLoop postcard fullAt ghost).writers := by
    rw [actorLoop_ghost]
    decide +kernel
  have hcounter : ⟨2⟩ ∈ (actorLoop postcard fullAt ghost).nextSession := by
    rw [actorLoop_ghost]
    decide +kernel
  refine ⟨?_, ?_, hnowriter, hcounter, ?_, fun h => hnowriter (h.counters _ hcounter), ?_⟩
  · rw [ghost, List.append_assoc]
    exact orderly_handshake _ ⟨by decide, by decide, trivial⟩
  · rw [attempts_ghost]
    exact bounded_flood (by decide +kernel) (hauntings.map .offer)
      ⟨by decide, by decide, by decide, trivial⟩
  · rw [actorLoop_ghost]
    decide +kernel
  · -- the same session is handed out in the handshake and after the eviction
    have hfirst : (⟨2⟩, 1) ∈ (history postcard fullAt Server.new
        (runCalls postcard fullAt Server.new handshake)).flatMap (granted postcard) := by
      decide +kernel
    have hagain : (⟨2⟩, 1) ∈ (history postcard fullAt brink
        (eviction ++ [.event .stored interest.event])).flatMap (granted postcard) := by
      decide +kernel
    rw [ghost, runCalls_append, ← actorLoop, actorLoop_brink, runCalls_eviction, history_append,
      ← actorLoop_eq, actorLoop_brink, runCalls_append, history_append, List.flatMap_append,
      List.flatMap_append]
    intro hnodup
    exact List.disjoint_of_nodup_append hnodup (List.mem_append_left _ hfirst) hagain

end Pane.GhostConnections
