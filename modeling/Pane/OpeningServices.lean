import Pane.InOrderDelivery
import Pane.ServedProtocols
import Pane.Verdicts

namespace Pane.OpeningServices

open Pane.HashTable Pane.Messages Pane.Callbacks Pane.Unwinding Pane.Routing Pane.Server
open Pane.ServerActor Pane.RouteSymmetry Pane.RouteTable Pane.SteadyRuns Pane.CoreRequest
open Pane.Framing Pane.ConnectionSource Pane.Links Pane.Streams Pane.WireSystem Pane.WireHistory
open Pane.PostcardFormat Pane.InOrderDelivery Pane.Setup Pane.Verdicts
open Pane.ServedProtocols (ends_awaitAnswer Awaited)

variable {H : Type} {services : List Uuid} {msgs : List LooperMessage} {b b' : PaneBuilder H}

section Builder

/-- The service for which a control message declares an interest. -/
def requested : ControlMessage → Option Uuid
  | .declareInterest service _ => some service
  | _ => none

/-- The services for which a builder has asked so far, in order. -/
def asked (b : PaneBuilder H) : List Uuid := b.sent.filterMap requested

theorem outcome_of_answer {service : Uuid} (hservice : service ∈ services) {msg : LooperMessage}
    {result : Option UInt16} :
    answer service msg = some result ↔ outcome services msg = some (service, result) := by
  cases msg with
  | control msg =>
    cases msg with
    | interestAccepted u session version =>
      by_cases hu : u = service
      · subst hu
        simp [answer, outcome, reply, hservice]
      · simp [answer, outcome, reply, hu]
    | interestDeclined u reason =>
      by_cases hu : u = service
      · subst hu
        simp [answer, outcome, reply, hservice]
      · simp [answer, outcome, reply, hu]
    | _ => simp [answer, outcome, reply]
  | _ => simp [answer, outcome]

variable (services msgs) in
/-- A builder has read one answer for each of its questions, unless it has read all
that it ever gets. -/
structure Paced (b : PaneBuilder H) : Prop where
  unconnected : b.rx = none → asked b = []
  reading : ∀ rest, b.rx = some rest → asked b <+: services → ∃ front, msgs = front ++ rest ∧
    (rest = [] ∨ (front.filterMap (outcome services)).length = (asked b).length)

theorem Paced.congr (h : Paced services msgs b) (hrx : b'.rx = b.rx) (hsent : b'.sent = b.sent) :
    Paced services msgs b' := by
  refine ⟨fun hnone => ?_, fun rest hrest hprefix => ?_⟩
  · rw [asked, hsent]
    exact h.unconnected (hrx ▸ hnone)
  · rw [asked, hsent] at hprefix ⊢
    exact h.reading rest (hrx ▸ hrest) hprefix

theorem skipped_answers {service : Uuid} {front skipped later : List LooperMessage}
    {before : List Uuid}
    (horder : ((front ++ (skipped ++ later)).filterMap (outcome services)).map Prod.fst <+: services)
    (hasked : before ++ [service] <+: services)
    (hcount : (front.filterMap (outcome services)).length = before.length)
    (hskipped : ∀ msg ∈ skipped, answer service msg = none) :
    skipped.filterMap (outcome services) = [] := by
  have hservice : service ∈ services := hasked.subset (by simp)
  apply List.eq_nil_iff_forall_not_mem.mpr
  intro r hr
  obtain ⟨first, others, hfirst⟩ := List.exists_cons_of_ne_nil (List.ne_nil_of_mem hr)
  have hmem : first ∈ skipped.filterMap (outcome services) := hfirst ▸ List.mem_cons_self
  obtain ⟨msg, hmsg, houtcome⟩ := List.mem_filterMap.mp hmem
  -- both are the entry of `services` behind those asked before
  have hnext : services[before.length]? = some first.1 := by
    rw [List.filterMap_append, List.filterMap_append, hfirst, List.map_append] at horder
    obtain ⟨rest, hrest⟩ := horder
    rw [← hrest, ← hcount]
    simp
  have hwanted : services[before.length]? = some service := by
    obtain ⟨rest, hrest⟩ := hasked
    rw [← hrest]
    simp
  have hfst : first.1 = service := Option.some.inj (hnext.symm.trans hwanted)
  have hanswer := (outcome_of_answer hservice).mpr
    (show outcome services msg = some (service, first.2) by rw [houtcome, ← hfst])
  cases (hskipped msg hmsg).symm.trans hanswer

theorem place_of_awaited (horder : (msgs.filterMap (outcome services)).map Prod.fst <+: services)
    (h : Paced services msgs b) {service : Uuid} {rx skipped rest : List LooperMessage}
    {result : Option UInt16} (hrx : b.rx = some rx) (hawaited : Awaited service rx skipped rest result)
    (hservices : asked b ++ [service] <+: services) :
    ∃ front, msgs = front ++ rest ∧
      (rest = [] ∨ (front.filterMap (outcome services)).length = (asked b).length + 1) ∧
      ∀ s, result = some s →
        (msgs.filterMap (outcome services))[(asked b).length]? = some (service, some s) := by
  have hservice : service ∈ services := hservices.subset (by simp)
  obtain ⟨front, hmsgs, hfront⟩ := h.reading rx hrx ((List.prefix_append _ _).trans hservices)
  obtain ⟨msg, rfl, hanswer⟩ | ⟨rfl, rfl, rfl⟩ := hawaited.split
  · have hcount : (front.filterMap (outcome services)).length = (asked b).length :=
      hfront.resolve_left (by simp)
    rw [hmsgs] at horder
    have hnone := skipped_answers horder hservices hcount hawaited.unanswered
    have houtcome := (outcome_of_answer hservice).mp hanswer
    refine ⟨front ++ (skipped ++ [msg]), by rw [hmsgs]; simp, .inr ?_, fun s hs => ?_⟩
    · simp [hnone, houtcome, hcount]
    · subst hs
      rw [hmsgs, List.filterMap_append, List.filterMap_append, hnone, List.nil_append,
        List.filterMap_cons_some houtcome, ← hcount]
      simp
  · exact ⟨msgs, (List.append_nil _).symm, .inl rfl, fun s hs => by cases hs⟩

theorem ends_openServiceInner
    (horder : (msgs.filterMap (outcome services)).map Prod.fst <+: services)
    (h : Paced services msgs b) (writable : Bool) (p : Protocol H) :
    Ends (openServiceInner writable p) b fun o b' => ∀ result, o = .done result →
      Paced services msgs b' ∧ (asked b' <+: services → ∀ s, result = some s →
        (msgs.filterMap (outcome services))[(asked b).length]? =
          some (p.serviceId.uuid, some s)) := by
  apply Ends.gets
  split
  · exact fun _ ho => by cases ho
  · apply Ends.modify
    apply Ends.gets
    cases hrx : b.rx with
    | none => exact fun _ ho => by cases ho
    | some rx =>
      cases writable with
      | false =>
        refine Ends.pure fun result ho => ?_
        cases ho
        exact ⟨h.congr hrx.symm rfl, fun _ _ hs => by cases hs⟩
      | true =>
        apply Ends.modify
        apply (ends_awaitAnswer p.serviceId.uuid rx _).mono
        rintro o b' ⟨skipped, rest, result, rfl, rfl, hawaited⟩ result' ho
        cases ho
        have hasked : ∀ buffered registered, asked
            (⟨some rest, b.sent ++ [.declareInterest p.serviceId.uuid 1], buffered, registered,
              b.providedServices, b.serviceDispatch⟩ : PaneBuilder H) =
            asked b ++ [p.serviceId.uuid] := by
          intro buffered registered
          simp [asked, requested]
        refine ⟨⟨nofun, fun rest' hrest' hservices => ?_⟩, fun hservices => ?_⟩
        · cases hrest'
          rw [hasked] at hservices ⊢
          obtain ⟨front, hmsgs, hcount, -⟩ := place_of_awaited horder h hrx hawaited hservices
          refine ⟨front, hmsgs, ?_⟩
          rwa [List.length_append]
        · rw [hasked] at hservices
          obtain ⟨front, -, -, hresult⟩ := place_of_awaited horder h hrx hawaited hservices
          exact hresult

theorem ends_register (sessionId : UInt16) (receiver : ServiceReceiver H) (b : PaneBuilder H) :
    Ends (register sessionId receiver) b fun _ b' => b'.rx = b.rx ∧ b'.sent = b.sent := by
  apply Ends.gets
  split
  · exact ⟨rfl, rfl⟩
  · exact ⟨rfl, rfl⟩

theorem ends_registerRequest (sessionId : UInt16) (receiver : RequestReceiver H)
    (b : PaneBuilder H) :
    Ends (registerRequest sessionId receiver) b fun _ b' => b'.rx = b.rx ∧ b'.sent = b.sent := by
  apply Ends.gets
  split
  · exact ⟨rfl, rfl⟩
  · exact ⟨rfl, rfl⟩

variable (services msgs) in
/-- What holds after a call: the builder keeps pace, and a handle that is returned
names the session in the answer at the place of the question. -/
structure Opened (b : PaneBuilder H) (handle : Option ServiceHandle) (b' : PaneBuilder H) :
    Prop where
  paced : Paced services msgs b'
  answered : asked b' <+: services → ∀ h, handle = some h → ∃ u,
    (msgs.filterMap (outcome services))[(asked b).length]? = some (u, some h.sessionId)

theorem opened_none (h : Paced services msgs b') : Opened services msgs b none b' :=
  ⟨h, fun _ _ hnone => by cases hnone⟩

theorem opened_of_inner {p : Protocol H} {s : UInt16} {b₁ : PaneBuilder H}
    (h : Paced services msgs b₁ ∧ (asked b₁ <+: services → ∀ t, some s = some t →
      (msgs.filterMap (outcome services))[(asked b).length]? = some (p.serviceId.uuid, some t)))
    (hrx : b'.rx = b₁.rx) (hsent : b'.sent = b₁.sent) :
    Opened services msgs b (some ⟨s, p.tag⟩) b' := by
  refine ⟨h.1.congr hrx hsent, fun hservices handle hhandle => ?_⟩
  cases hhandle
  rw [asked, hsent] at hservices
  exact ⟨_, h.2 hservices s rfl⟩

theorem opened_exec (horder : (msgs.filterMap (outcome services)).map Prod.fst <+: services)
    (h : Paced services msgs b) {call : BuilderCall H}
    (hcall : ∀ rx, call = .connect (some rx) → rx = msgs) :
    Ends call.exec b fun o b' => ∀ handle, o = .done handle →
      Opened services msgs b handle b' := by
  cases call with
  | serve p =>
    apply Ends.bind
    apply Ends.gets
    split
    · exact fun _ ho => by cases ho
    · intro handle ho
      cases ho
      exact opened_none (h.congr rfl rfl)
  | connect conn =>
    apply Ends.bind
    apply Ends.gets
    cases hrx : b.rx with
    | some rx => exact fun _ ho => by cases ho
    | none =>
      cases conn with
      | none =>
        intro handle ho
        cases ho
        exact opened_none h
      | some rx =>
        intro handle ho
        cases ho
        refine opened_none ⟨nofun, fun rest hrest _ => ?_⟩
        obtain rfl : rx = rest := Option.some.inj hrest
        refine ⟨[], (hcall rx rfl).symm, .inr ?_⟩
        have hnone : asked b = [] := h.unconnected hrx
        exact (congrArg List.length hnone).symm
  | openService writable p =>
    refine Ends.seq (ends_openServiceInner horder h writable p) ?_ fun _ _ _ ho => by cases ho
    intro result b₁ hresult
    cases result with
    | none =>
      intro handle ho
      cases ho
      exact opened_none (hresult none rfl).1
    | some s =>
      refine Ends.seq (ends_register s (makeServiceReceiver p) b₁) ?_ fun _ _ _ ho => by cases ho
      intro _ b₂ hsame handle ho
      cases ho
      exact opened_of_inner (hresult (some s) rfl) hsame.1 hsame.2
  | openServiceWithRequests writable p =>
    refine Ends.seq (ends_openServiceInner horder h writable p) ?_ fun _ _ _ ho => by cases ho
    intro result b₁ hresult
    cases result with
    | none =>
      intro handle ho
      cases ho
      exact opened_none (hresult none rfl).1
    | some s =>
      refine Ends.seq (ends_register s (makeServiceReceiver p) b₁) ?_ fun _ _ _ ho => by cases ho
      intro _ b₂ hsame
      refine Ends.seq (ends_registerRequest s (makeRequestReceiver p) b₂) ?_
        fun _ _ _ ho => by cases ho
      intro _ b₃ hsame' handle ho
      cases ho
      exact opened_of_inner (hresult (some s) rfl) (hsame'.1.trans hsame.1)
        (hsame'.2.trans hsame.2)

theorem paced_new : Paced services msgs (PaneBuilder.new : PaneBuilder H) :=
  ⟨fun _ => rfl, nofun⟩

theorem paced_setup (horder : (msgs.filterMap (outcome services)).map Prod.fst <+: services)
    (h : Paced services msgs b) {calls : List (BuilderCall H)}
    (hcalls : ∀ rx, .connect (some rx) ∈ calls → rx = msgs) :
    Ends (setup calls) b fun o b' => ∀ handles, o = .done handles → Paced services msgs b' := by
  induction calls generalizing b with
  | nil => exact fun _ _ => h
  | cons call calls ih =>
    have hcall : ∀ rx, call = .connect (some rx) → rx = msgs :=
      fun rx hrx => hcalls rx (hrx ▸ List.mem_cons_self)
    refine Ends.seq (opened_exec horder h hcall) ?_ fun _ _ _ ho => by cases ho
    intro handle b₁ hopened
    refine Ends.seq (ih (hopened handle rfl).paced fun rx hrx =>
      hcalls rx (List.mem_cons_of_mem _ hrx)) ?_ fun _ _ _ ho => by cases ho
    exact fun handles b₂ hrest _ _ => hrest handles rfl

end Builder

section Binding

variable (pc : Postcard) (accepts : Nat → Bool) (conn : ConnectionId)

def IsDeclaration (n : Nat) (u : Uuid) (front : List Input) (input : Input) : Prop :=
  (front.filterMap fun i => asks pc conn i.event).length = n ∧ asks pc conn input.event = some u

def Creates (session : UInt16) (s : ServerState) (input : Input) : Prop :=
  (conn, session) ∉ s.routingTable ∧ ∃ r : Route, r.consumer = (conn, session) ∧
    (processEvent pc accepts input.order s input.event).routingTable.lookup (conn, session) = some r

/-- What a call returns fits what the server made of its declaration. -/
structure Bound (past : List Input) (n : Nat) (handle : Option ServiceHandle) : Prop where
  created : ∀ h, handle = some h → ∃ front input rest u, past = front ++ input :: rest ∧
    IsDeclaration pc conn n u front input ∧
    Creates pc accepts conn h.sessionId (actorLoop pc accepts front) input
  declined : ∀ front input rest u reason, past = front ++ input :: rest →
    IsDeclaration pc conn n u front input →
    ((actorLoop pc accepts front).handleDeclareInterest conn u).1 = .error reason → handle = none

variable {pc accepts conn}

theorem asks_eq_some {event : ServerEvent} {u : Uuid} (h : asks pc conn event = some u)
    (order : HashOrder) :
    ∃ version, controlOf pc (.event order event) = some (conn, .declareInterest u version) := by
  cases event with
  | frame d wire payload =>
    rw [asks_frame] at h
    split at h
    · next hd =>
      rw [declared] at h
      split at h
      · next hwire =>
        split at h
        · next service version hmsg =>
          cases h
          have hzero : wire = 0 := hwire
          exact ⟨version, by simp [controlOf, hzero, hmsg, hd]⟩
        · cases h
      · cases h
    · cases h
  | _ => cases h

theorem creates_of_verdict {s : ServerState} (hs : Symmetric s.toRoutingState) {input : Input}
    {u : Uuid} (hasks : asks pc conn input.event = some u) {session : UInt16}
    (h : verdict s.toRoutingState conn u = some session) :
    Creates pc accepts conn session s input := by
  obtain ⟨hnew, r, hr, hlookup⟩ := created_of_verdict hs h
  obtain ⟨version, hcontrol⟩ := asks_eq_some hasks input.order
  have hrouting := GhostConnections.toRoutingState_declaration accepts (s := s) hcontrol
  refine ⟨hnew, r, hr, ?_⟩
  show (exec pc accepts s (.event input.order input.event)).toRoutingState.routingTable.lookup _ = _
  rw [hrouting]
  exact hlookup

theorem isDeclaration_unique {n : Nat} {u v : Uuid} {front front' : List Input}
    {input input' : Input} {rest rest' : List Input}
    (h : IsDeclaration pc conn n u front input) (h' : IsDeclaration pc conn n v front' input')
    (hpast : front ++ input :: rest = front' ++ input' :: rest') :
    front = front' ∧ input = input' := by
  have hlt : ∀ {f f' : List Input} {i : Input} {w : Uuid}, IsDeclaration pc conn n w f i →
      (f'.filterMap fun i => asks pc conn i.event).length = n → ¬ f ++ [i] <+: f' := by
    rintro f f' i w ⟨hn, hi⟩ hn' ⟨more, rfl⟩
    simp only [List.filterMap_append, List.length_append, List.filterMap_cons, hi,
      List.filterMap_nil, List.length_cons, List.length_nil] at hn'
    omega
  have hfront : front ++ [input] <+: front ++ input :: rest := ⟨rest, by simp⟩
  have hfront' : front' ++ [input'] <+: front ++ input :: rest := ⟨rest', by rw [hpast]; simp⟩
  obtain hlength | hlength | hlength := Nat.lt_trichotomy front.length front'.length
  · refine absurd (List.prefix_of_prefix_length_le hfront
      ((List.prefix_append _ _).trans hfront') ?_) (hlt h h'.1)
    rw [List.length_append]
    exact hlength
  · obtain ⟨hsame, htail⟩ := List.append_inj hpast hlength
    exact ⟨hsame, (List.cons.inj htail).1⟩
  · refine absurd (List.prefix_of_prefix_length_le hfront'
      ((List.prefix_append _ _).trans hfront) ?_) (hlt h' h.1)
    rw [List.length_append]
    exact hlength

end Binding

section Runs

variable {Q : Type} {net : Setting Q} {fits : ConnectionId → WriteMessage → Prop}
  {Carries : ConnectionId → Q → List WriteMessage → Prop} {x : System Q} {conn : ConnectionId}

theorem asks_services (hlink : ∀ c, Faithful (net.link c) (fits c) (Carries c))
    {ok : System Q → Label → Prop} (hx : Reached net ok x)
    (hfits : ∀ f ∈ (x.wires conn).taken, fits conn f)
    (htaken : (x.wires conn).taken.filterMap (declared net.pc) <+: services)
    {front : List Input} (hfront : front <+: x.past) :
    (rulings net.pc net.accepts conn services Server.new front).map Prod.fst =
        front.filterMap (fun i => asks net.pc conn i.event) ∧
      front.filterMap (fun i => asks net.pc conn i.event) <+: services := by
  have hasks := ((hfront.filterMap _).trans (asks_initial hlink hx hfits)).trans htaken
  refine ⟨?_, hasks⟩
  rw [map_fst_rulings]
  exact List.filter_eq_self.mpr fun u hu => by simpa using hasks.subset hu

theorem symmetric_past (hlink : ∀ c, Faithful (net.link c) (fits c) (Carries c))
    {ok : System Q → Label → Prop} (hx : Reached net ok x) {front : List Input}
    (hfront : front <+: x.past) :
    Symmetric (actorLoop net.pc net.accepts front).toRoutingState := by
  obtain ⟨known, gone, hsteady⟩ := steady_past (flows_reached hlink hx)
  have horderly := orderly_of_legal (legal_initially (hfront.map _) hsteady.legal)
  obtain ⟨_, hsound⟩ := sound_actorLoop net.pc net.accepts horderly
  exact hsound.symmetric

/-- A handle of `open_service` stands for the route that the server created on its
declaration, and there is none if the server declined, however the panes and the
server interleave: as long as the server does not accept interests of other panes
in the services that this pane asks for with this pane as their provider. -/
theorem open_service_binds (hlink : ∀ c, Faithful (net.link c) (fits c) (Carries c))
    (hpc : net.pc.ControlRoundTrip)
    (hx : Reached net (fun x label => unmixed net conn services x label = true) x)
    (hfits : ∀ f ∈ (x.wires conn).taken ++ (x.wires conn).wrote, fits conn f)
    (htaken : (x.wires conn).taken.filterMap (declared net.pc) <+: services)
    {before : List (BuilderCall H)} {handles : List ServiceHandle}
    (hbefore : setup before PaneBuilder.new = (.done handles, b))
    (hrx : ∀ rx, .connect (some rx) ∈ before → rx = (x.wires conn).delivered)
    {call : BuilderCall H} (hopens : (ServedProtocols.opened call).isSome)
    {handle : Option ServiceHandle} (hcall : call.exec b = (.done handle, b'))
    (hasked : asked b' <+: services) :
    Bound net.pc net.accepts conn x.past (asked b).length handle := by
  have htakenFits : ∀ f ∈ (x.wires conn).taken, fits conn f :=
    fun f hf => hfits f (List.mem_append_left _ hf)
  have hheard := heard_initial hlink hpc hx fun f hf => hfits f (List.mem_append_right _ hf)
  obtain ⟨hfst, hservices⟩ := asks_services hlink hx htakenFits htaken (List.prefix_refl x.past)
  have horder : ((x.wires conn).delivered.filterMap (outcome services)).map Prod.fst <+: services :=
    (hheard.map Prod.fst).trans (hfst ▸ hservices)
  have hpaced := paced_setup horder paced_new hrx handles (congrArg Prod.fst hbefore)
  rw [hbefore] at hpaced
  have hnew : ∀ rx, call = .connect (some rx) → rx = (x.wires conn).delivered := by
    rintro rx rfl
    cases hopens
  have hopened := opened_exec horder hpaced hnew handle (congrArg Prod.fst hcall)
  rw [hcall] at hopened
  -- the declaration on which the server gave the verdict that a handle names
  have hcreated : ∀ h, handle = some h → ∃ front input rest u,
      x.past = front ++ input :: rest ∧ IsDeclaration net.pc conn (asked b).length u front input ∧
      verdict (actorLoop net.pc net.accepts front).toRoutingState conn u = some h.sessionId := by
    intro h hh
    obtain ⟨u, hanswer⟩ := hopened.answered hasked h hh
    obtain ⟨more, hmore⟩ := hheard
    have hruling : (rulings net.pc net.accepts conn services Server.new x.past)[(asked b).length]? =
        some (u, some h.sessionId) := by
      rw [← hmore, List.getElem?_append_left (List.getElem?_eq_some_iff.mp hanswer).1]
      exact hanswer
    obtain ⟨front, input, rest, hpast, hasks, hverdict, hn⟩ := declaration_of_ruling hruling
    have hfront : front <+: x.past := hpast ▸ List.prefix_append _ _
    refine ⟨front, input, rest, u, hpast, ⟨?_, hasks⟩, hverdict.symm⟩
    rw [← (asks_services hlink hx htakenFits htaken hfront).1, List.length_map, hn]
  refine ⟨fun h hh => ?_, fun front input rest u reason hpast hturn hreason => ?_⟩
  · obtain ⟨front, input, rest, u, hpast, hturn, hverdict⟩ := hcreated h hh
    have hsymmetric := symmetric_past hlink hx (hpast ▸ List.prefix_append front (input :: rest))
    exact ⟨front, input, rest, u, hpast, hturn, creates_of_verdict hsymmetric hturn.2 hverdict⟩
  · cases hhandle : handle with
    | none => rfl
    | some h =>
      obtain ⟨front', input', rest', v, hpast', hturn', hverdict⟩ := hcreated h hhandle
      obtain ⟨rfl, rfl⟩ := isDeclaration_unique hturn hturn' (hpast.symm.trans hpast')
      obtain rfl : u = v := Option.some.inj (hturn.2.symm.trans hturn'.2)
      cases (verdict_of_error hreason).symm.trans hverdict

end Runs

/-- Three panes. The second serves `offer`; while it asks for the clipboard, the
third asks for `offer`, and the server hears of that first. -/
def requests (offer : Uuid) (first : List Uuid) : List Label :=
  let declare (u : Uuid) : WriteMessage := (0, controlMessage.encode (.declareInterest u 1))
  [.wire ⟨1⟩ .greet, .wire ⟨1⟩ (.register ⟨first⟩), .wire ⟨2⟩ .greet,
    .wire ⟨2⟩ (.register ⟨[offer]⟩), .wire ⟨3⟩ .greet, .wire ⟨3⟩ (.register ⟨[]⟩),
    .act .stored, .act .stored, .act .stored, .wire ⟨2⟩ (.driftDown 100), .wire ⟨2⟩ .paneRead,
    .wire ⟨2⟩ (.send (declare clipboard)), .wire ⟨3⟩ (.send (declare offer)),
    .wire ⟨3⟩ (.driftUp 100), .wire ⟨2⟩ (.driftUp 100), .wire ⟨3⟩ .serverRead,
    .wire ⟨2⟩ .serverRead, .act .stored, .act .stored,
    .wire ⟨2⟩ .serverWrite, .wire ⟨2⟩ (.driftDown 100), .wire ⟨2⟩ .serverWrite,
    .wire ⟨2⟩ (.driftDown 100), .wire ⟨2⟩ .paneRead, .wire ⟨2⟩ .paneRead]

def asking : Setting Stream := overStreams postcard (fun _ => true) (fun _ => 64)

def silent (service : Uuid) : Protocol Unit :=
  ⟨⟨service, "sample"⟩, fun _ => some fun h => .ret h .cont, fun _ => none⟩

def prepared (offer : Uuid) (delivered : List LooperMessage) : List (BuilderCall Unit) :=
  [.serve (silent offer), .connect (some delivered)]

def ready (offer : Uuid) (delivered : List LooperMessage) : PaneBuilder Unit :=
  (setup (prepared offer delivered) PaneBuilder.new).2

def menu : Uuid := Uuid.replicate 0xC2

def served : System Stream :=
  (runs asking (unmixed asking ⟨2⟩ [clipboard]) (requests menu [clipboard])
    (System.new asking)).get (by decide +kernel)

theorem open_service_binds_menu :
    (served.wires ⟨2⟩).delivered = [.control (.lifecycle .ready),
      .control (.interestAccepted menu 1 1), .control (.interestAccepted clipboard 2 1)] ∧
    (BuilderCall.openService true (silent clipboard)).exec
        (ready menu (served.wires ⟨2⟩).delivered) =
      (.done (some ⟨2, (silent clipboard).tag⟩), ((BuilderCall.openService true
        (silent clipboard)).exec (ready menu (served.wires ⟨2⟩).delivered)).2) ∧
    Bound postcard (fun _ => true) ⟨2⟩ served.past 0 (some ⟨2, (silent clipboard).tag⟩) := by
  have hdelivered : (served.wires ⟨2⟩).delivered = [.control (.lifecycle .ready),
      .control (.interestAccepted menu 1 1), .control (.interestAccepted clipboard 2 1)] := rfl
  have hlink : ∀ c, Faithful (asking.link c) Measured Underway := fun _ => faithful_byteStream 64
  have hcall : (BuilderCall.openService true (silent clipboard)).exec
        (ready menu (served.wires ⟨2⟩).delivered) =
      (.done (some ⟨2, (silent clipboard).tag⟩), ((BuilderCall.openService true
        (silent clipboard)).exec (ready menu (served.wires ⟨2⟩).delivered)).2) := by
    rw [hdelivered]
    rfl
  refine ⟨hdelivered, hcall, ?_⟩
  have hbefore : setup (prepared menu (served.wires ⟨2⟩).delivered) PaneBuilder.new =
      (.done [], ready menu (served.wires ⟨2⟩).delivered) := rfl
  have hreached : Reached asking
      (fun x label => unmixed asking ⟨2⟩ [clipboard] x label = true) served :=
    reached_runs (reached_new _) (Option.some_get _).symm
  refine open_service_binds hlink postcard_control hreached
    (by decide +kernel) (by decide +kernel) hbefore ?_ rfl hcall ?_
  · intro rx hrx
    simpa [prepared] using hrx
  · rw [hdelivered]
    exact List.prefix_refl _

def selfServed : System Stream :=
  (runs asking (fun _ _ => true) (requests clipboard []) (System.new asking)).get
    (by decide +kernel)

def fifth : Input := selfServed.past.get ⟨4, by decide +kernel⟩

/-- A pane that serves the clipboard and asks for it takes the news of a consumer
for the answer: it gets a handle although the server declines. -/
theorem open_service_takes_foreign_session :
    Reached asking (fun _ _ => True) selfServed ∧
    (ready clipboard (selfServed.wires ⟨2⟩).delivered).providedServices.map (·.service.uuid) =
      [clipboard] ∧
    (selfServed.wires ⟨2⟩).delivered = [.control (.lifecycle .ready),
      .control (.interestAccepted clipboard 1 1),
      .control (.interestDeclined clipboard .selfProvide)] ∧
    ((BuilderCall.openService true (silent clipboard)).exec
        (ready clipboard (selfServed.wires ⟨2⟩).delivered)).1 =
      .done (some ⟨1, (silent clipboard).tag⟩) ∧
    ¬ Bound postcard (fun _ => true) ⟨2⟩ selfServed.past 0 (some ⟨1, (silent clipboard).tag⟩) := by
  have hdelivered : (selfServed.wires ⟨2⟩).delivered = [.control (.lifecycle .ready),
      .control (.interestAccepted clipboard 1 1),
      .control (.interestDeclined clipboard .selfProvide)] := rfl
  have hreached : Reached asking (fun _ _ => (true = true)) selfServed :=
    reached_runs (reached_new _) (Option.some_get _).symm
  refine ⟨by simpa using hreached, by rw [hdelivered]; rfl, hdelivered, by rw [hdelivered]; rfl,
    fun hbound => ?_⟩
  -- the fifth event is the declaration of the pane, and it is declined
  have hpast : selfServed.past = selfServed.past.take 4 ++ fifth :: selfServed.past.drop 5 := by
    simp [fifth]
  have hturn : IsDeclaration postcard ⟨2⟩ 0 clipboard (selfServed.past.take 4) fifth := by
    unfold IsDeclaration
    decide +kernel
  have herror : ((actorLoop postcard (fun _ => true)
      (selfServed.past.take 4)).handleDeclareInterest ⟨2⟩ clipboard).1 = .error .selfProvide := by
    rfl
  cases hbound.declined _ _ _ clipboard .selfProvide hpast hturn herror

end Pane.OpeningServices
