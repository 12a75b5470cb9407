import Pane.WireHistory

namespace Pane.Verdicts

open Pane.HashTable Pane.Messages Pane.Routing Pane.Server Pane.ServerFrame Pane.ServerActor
open Pane.RouteSymmetry Pane.RouteRemoval Pane.RouteTable Pane.RoutePipes Pane.Offers
open Pane.Attempts Pane.Overflow Pane.SteadyRuns Pane.CoreRequest Pane.ConnectionSource
open Pane.Links Pane.WireSystem Pane.WireHistory

variable {pc : Postcard} {accepts : Nat → Bool} {conn : ConnectionId} {service : Uuid}
  {services : List Uuid}

def declared (pc : Postcard) (frame : WriteMessage) : Option Uuid :=
  if frame.1 = 0 then
    match pc.controlFromBytes frame.2 with
    | some (.declareInterest service _) => some service
    | _ => none
  else none

def verdict (s : RoutingState) (conn : ConnectionId) (service : Uuid) : Option UInt16 :=
  match (s.handleDeclareInterest conn service).1 with
  | .ok (.interestAccepted _ session _, _) => some session
  | _ => none

theorem created_of_verdict {s : RoutingState} (hs : Symmetric s) {session : UInt16}
    (h : verdict s conn service = some session) :
    (conn, session) ∉ s.routingTable ∧ ∃ r, r.consumer = (conn, session) ∧
      (s.handleDeclareInterest conn service).2.routingTable.lookup (conn, session) = some r := by
  rw [verdict] at h
  obtain ⟨_, he⟩ | ⟨-, he⟩ | ⟨p, -, -, -, ⟨-, he⟩ | ⟨-, he⟩⟩ :=
    RoutingState.handleDeclareInterest_cases conn service s <;> rw [he] at h
  · cases h
  · cases h
  · cases h
  · cases h
    refine ⟨AList.lookup_eq_none.mp (lookup_fresh hs conn), s.freshRoute conn p, rfl, ?_⟩
    rw [he]
    exact (lookup_link_iff hs conn p _ _).mpr (.inr ⟨rfl, .inl rfl⟩)

theorem verdict_of_error {s : RoutingState} {reason : DeclineReason}
    (h : (s.handleDeclareInterest conn service).1 = .error reason) :
    verdict s conn service = none := by
  rw [verdict, h]

section Answers

/-- What a control message answers, if it is about one of the services. -/
def reply (services : List Uuid) : ControlMessage → Option (Uuid × Option UInt16)
  | .interestAccepted u session _ => if u ∈ services then some (u, some session) else none
  | .interestDeclined u _ => if u ∈ services then some (u, none) else none
  | _ => none

def apart (pc : Postcard) (conn : ConnectionId) (services : List Uuid) (s : RoutingState) :
    ServerEvent → Bool
  | .frame d wire payload =>
    match declared pc (wire, payload) with
    | some u => d = conn ∨ u ∉ services ∨ (s.providerIndex.lookup u).bind List.head? ≠ some conn
    | none => true
  | _ => true

theorem answers_declare {s : RoutingState} {d : ConnectionId} {u : Uuid}
    (h : d = conn ∨ u ∉ services ∨ (s.providerIndex.lookup u).bind List.head? ≠ some conn) :
    (declareNotices s d u).filterMap (meant conn (reply services)) =
      if d = conn ∧ u ∈ services then [(u, verdict s conn u)] else [] := by
  have hdeclined : ∀ reason, (s.handleDeclareInterest d u).1 = .error reason →
      (declareNotices s d u).filterMap (meant conn (reply services)) =
        if d = conn ∧ u ∈ services then [(u, verdict s conn u)] else [] := by
    intro reason hreason
    by_cases hd : d = conn
    · subst hd
      by_cases hu : u ∈ services <;>
        simp [declareNotices, meant, reply, hreason, hu, verdict_of_error hreason]
    · simp [declareNotices, meant, hreason, hd]
  obtain ⟨reason, he⟩ | ⟨-, he⟩ | ⟨p, hp, hne, -, ⟨-, he⟩ | ⟨-, he⟩⟩ :=
    RoutingState.handleDeclareInterest_cases d u s
  · exact hdeclined reason (by rw [he])
  · exact hdeclined _ (by rw [he])
  · exact hdeclined _ (by rw [he])
  · by_cases hd : d = conn
    · subst hd
      by_cases hu : u ∈ services <;> simp [declareNotices, verdict, he, meant, reply, hne, hu]
    · by_cases hpc : p = conn
      · -- the connection is the provider, so the service is none of its own
        have hu : u ∉ services := by
          obtain h | h | h := h
          · exact absurd h hd
          · exact h
          · exact absurd (hpc ▸ hp) h
        simp [declareNotices, he, meant, reply, hd, hu]
      · simp [declareNotices, he, meant, hd, hpc]

theorem answers_none {msgs : List (ConnectionId × ControlMessage)}
    (h : ∀ m ∈ msgs, reply services m.2 = none) :
    msgs.filterMap (meant conn (reply services)) = [] := by
  apply List.filterMap_eq_nil_iff.mpr
  intro m hm
  rw [meant]
  split
  · exact h m hm
  · rfl

theorem answers_disconnect (order : HashOrder) (s : ServerState) (d : ConnectionId) :
    (disconnectNotices order s d).filterMap (meant conn (reply services)) = [] := by
  apply answers_none
  intro m hm
  obtain hm | hm := List.mem_append.mp hm
  · unfold watcherNotices at hm
    split at hm
    · obtain ⟨w, -, rfl⟩ := List.mem_map.mp hm
      rfl
    · cases hm
  · obtain ⟨peer, -, rfl⟩ := List.mem_map.mp hm
    rfl

def asks (pc : Postcard) (conn : ConnectionId) (event : ServerEvent) : Option Uuid :=
  (frameOf conn event).bind (declared pc)

def ruling (pc : Postcard) (conn : ConnectionId) (services : List Uuid) (s : RoutingState)
    (event : ServerEvent) : Option (Uuid × Option UInt16) :=
  ((asks pc conn event).filter (· ∈ services)).map fun u => (u, verdict s conn u)

theorem asks_frame (d : ConnectionId) (wire : UInt16) (payload : Bytes) :
    asks pc conn (.frame d wire payload) =
      if d = conn then declared pc (wire, payload) else none := by
  by_cases hd : d = conn <;> simp [asks, frameOf, hd]

theorem answers_event {s : ServerState} {event : ServerEvent}
    (h : apart pc conn services s.toRoutingState event = true) (order : HashOrder) :
    (notices pc s (.event order event)).filterMap (meant conn (reply services)) =
      (ruling pc conn services s.toRoutingState event).toList := by
  cases event with
  | newConnection d hello => rfl
  | disconnected d => exact answers_disconnect order s d
  | frame d wire payload =>
    have hquiet : declared pc (wire, payload) = none →
        ruling pc conn services s.toRoutingState (.frame d wire payload) = none := by
      intro hnone
      rw [ruling, asks_frame, hnone, ite_self]
      rfl
    by_cases hwire : wire = 0
    · subst hwire
      cases hmsg : pc.controlFromBytes payload with
      | none => simp [notices, controlNotices, hmsg, hquiet (by simp [declared, hmsg])]
      | some msg =>
        cases msg with
        | declareInterest u version =>
          have hdeclared : declared pc (0, payload) = some u := by simp [declared, hmsg]
          simp only [apart, hdeclared, decide_eq_true_eq] at h
          have hanswers := answers_declare h
          simp only [notices, controlNotices, hmsg, if_true, hanswers, ruling, asks_frame, hdeclared]
          by_cases hd : d = conn <;> by_cases hu : u ∈ services <;>
            simp [hd, hu, Option.filter]
        | revokeInterest sessionId =>
          rw [hquiet (by simp [declared, hmsg])]
          simp only [notices, controlNotices, hmsg, if_true]
          apply answers_none
          intro m hm
          unfold revokeNotices at hm
          split at hm
          · cases hm
          · obtain rfl | hm := List.mem_cons.mp hm
            · rfl
            · obtain rfl := List.mem_singleton.mp hm
              rfl
        | watch target =>
          rw [hquiet (by simp [declared, hmsg])]
          simp only [notices, controlNotices, hmsg, if_true]
          apply answers_none
          intro m hm
          unfold watchNotices at hm
          split at hm
          · cases hm
          · obtain rfl := List.mem_singleton.mp hm
            rfl
        | _ => simp [notices, controlNotices, hmsg, hquiet (by simp [declared, hmsg])]
    · simp [notices, hwire, hquiet (by simp [declared, hwire])]

end Answers

section Channel

def outcome (services : List Uuid) : LooperMessage → Option (Uuid × Option UInt16)
  | .control msg => reply services msg
  | _ => none

def hears (pc : Postcard) (services : List Uuid) (frame : WriteMessage) :
    Option (Uuid × Option UInt16) :=
  (arrived pc frame).bind (outcome services)

theorem hears_message {f : Outbound} (h : f.conn = conn) :
    hears pc services (message f) = heard pc conn (reply services) f := by
  by_cases hzero : f.service = 0
  · cases hmsg : pc.controlFromBytes f.payload with
    | none => simp [hears, arrived, classifyFrame, message, heard, h, hzero, hmsg]
    | some msg => simp [hears, arrived, classifyFrame, message, heard, h, hzero, hmsg, outcome]
  · simp [hears, arrived, classifyFrame, message, heard, hzero, outcome]

theorem hears_attempted (attempts : List Attempt) :
    ((attemptedFor attempts conn).map message).filterMap (hears pc services) =
      (attempts.map Attempt.frame).filterMap (heard pc conn (reply services)) := by
  induction attempts with
  | nil => rfl
  | cons a as ih =>
    by_cases hconn : a.frame.conn = conn
    · have hfor : attemptedFor (a :: as) conn = a.frame :: attemptedFor as conn := by
        simp [attemptedFor, hconn]
      rw [hfor, List.map_cons, List.filterMap_cons, List.map_cons, List.filterMap_cons,
        hears_message hconn, ih]
    · have hfor : attemptedFor (a :: as) conn = attemptedFor as conn := by
        simp [attemptedFor, hconn]
      have hnone : heard pc conn (reply services) a.frame = none := if_neg fun h => hconn h.1
      rw [hfor, List.map_cons, List.filterMap_cons_none hnone, ih]

variable (pc conn services) in
theorem hears_sublist (attempts : List Attempt) :
    ((enqueued attempts conn).filterMap (hears pc services)).Sublist
      ((attempts.map Attempt.frame).filterMap (heard pc conn (reply services))) := by
  rw [← hears_attempted]
  refine List.Sublist.filterMap _ (List.Sublist.map _ (List.Sublist.map _ ?_))
  apply List.monotone_filter_right
  intro a ha
  simp only [decide_eq_true_eq] at ha ⊢
  exact ha.1

theorem hears_of_unrefused {attempts : List Attempt} (h : conn ∉ refusals attempts) :
    (enqueued attempts conn).filterMap (hears pc services) =
      (attempts.map Attempt.frame).filterMap (heard pc conn (reply services)) := by
  have hall : acceptedFor attempts conn = attemptedFor attempts conn := by
    rw [acceptedFor, attemptedFor]
    congr 1
    apply List.filter_congr
    intro a ha
    rw [decide_eq_decide]
    refine ⟨And.left, fun hconn => ⟨hconn, ?_⟩⟩
    by_contra hrefused
    refine h (List.mem_map.mpr ⟨a, List.mem_filter.mpr ⟨ha, ?_⟩, hconn⟩)
    simpa using hrefused
  rw [← hears_attempted, enqueued, hall]

theorem heard_offers (hpc : pc.ControlRoundTrip) {s : ServerState}
    (hs : Symmetric s.toRoutingState) (c : Call) :
    (offers pc s c).filterMap (heard pc conn (reply services)) =
      if conn ∈ s.writers then (notices pc s c).filterMap (meant conn (reply services)) else [] := by
  rw [offers, List.filterMap_append, heard_forwards conn (reply services) hs, List.append_nil,
    heard_tell conn (reply services) hpc]

end Channel

section Teardowns

def Cleanup (cs : List Call) : Prop := ∀ c ∈ cs, c = .drain ∨ ∃ order d, c = .tearDown order d

theorem heard_cleanup (hpc : pc.ControlRoundTrip) {s : ServerState} {cs : List Call}
    (h : Cleanup cs) :
    (offersOf pc accepts s cs).filterMap (heard pc conn (reply services)) = [] := by
  induction cs generalizing s with
  | nil => rfl
  | cons c cs ih =>
    have hoffers : offersOf pc accepts s (c :: cs) =
        offers pc s c ++ offersOf pc accepts (exec pc accepts s c) cs := List.flatMap_cons
    rw [hoffers, List.filterMap_append, ih fun d hd => h d (List.mem_cons_of_mem _ hd),
      List.append_nil]
    have hforwards : forwards s c = [] := by
      obtain rfl | ⟨order, d, rfl⟩ := h c List.mem_cons_self <;> rfl
    have hnotices : (notices pc s c).filterMap (meant conn (reply services)) = [] := by
      obtain rfl | ⟨order, d, rfl⟩ := h c List.mem_cons_self
      · rfl
      · exact answers_disconnect order s d
    rw [offers, hforwards, List.append_nil, heard_tell conn (reply services) hpc, hnotices, ite_self]

theorem writers_cleanup {s : ServerState} {cs : List Call} (h : Cleanup cs)
    (hw : conn ∈ (execs pc accepts cs s).writers) :
    conn ∈ s.writers ∧ ∀ order, .tearDown order conn ∉ cs := by
  induction cs generalizing s with
  | nil => exact ⟨hw, fun _ => List.not_mem_nil⟩
  | cons c cs ih =>
    obtain ⟨hbefore, hrest⟩ := ih (fun d hd => h d (List.mem_cons_of_mem _ hd)) hw
    rw [mem_writers_exec] at hbefore
    have hjoin : joining c ≠ some conn := by
      obtain rfl | ⟨order, d, rfl⟩ := h c List.mem_cons_self <;> exact nofun
    obtain hbefore | ⟨hbefore, hleave⟩ := hbefore
    · exact absurd hbefore hjoin
    · refine ⟨hbefore, fun order hmem => ?_⟩
      obtain rfl | hmem := List.mem_cons.mp hmem
      · exact hleave rfl
      · exact hrest order hmem

variable (pc accepts) in
theorem stepCalls_eq (s : ServerState) (input : Input) :
    ∃ cs, stepCalls pc accepts s input = .event input.order input.event :: cs ∧ Cleanup cs ∧
      ∀ d ∈ (processEvent pc accepts input.order s input.event).overflowTeardown,
        .tearDown input.order d ∈ cs := by
  refine ⟨_, rfl, fun c hc => ?_, fun d hd => ?_⟩
  · split at hc
    · cases hc
    · obtain rfl | hc := List.mem_cons.mp hc
      · exact .inl rfl
      · obtain ⟨d, -, rfl⟩ := List.mem_map.mp hc
        exact .inr ⟨_, d, rfl⟩
  · rw [if_neg (List.ne_nil_of_mem hd)]
    exact List.mem_cons_of_mem _ (List.mem_map_of_mem (mem_firstOccurrences hd List.not_mem_nil))

end Teardowns

section Runs

variable (pc accepts conn services) in
def rulings (s : ServerState) : List Input → List (Uuid × Option UInt16)
  | [] => []
  | input :: inputs =>
    (ruling pc conn services s.toRoutingState input.event).toList ++
      rulings (actorStep pc accepts s input) inputs

variable (pc conn services) in
/-- The answers in the channel of a connection are the first of the verdicts, and
all of them as long as it can be written to. -/
structure Told (known : List ConnectionId) (s : ServerState)
    (verdicts : List (Uuid × Option UInt16)) : Prop where
  initial : (enqueued s.attempts conn).filterMap (hears pc services) <+: verdicts
  complete : conn ∈ s.writers → (enqueued s.attempts conn).filterMap (hears pc services) = verdicts
  silent : conn ∉ known → verdicts = []

theorem told_new : Told pc conn services [] Server.new [] :=
  ⟨List.prefix_refl _, fun _ => rfl, fun _ => rfl⟩

variable (accepts conn services) in
theorem hears_actorStep (hpc : pc.ControlRoundTrip) {known : List ConnectionId} {s : ServerState}
    {input : Input} (hs : Sound known s.toRoutingState) (hanswered : Answered accepts s)
    (hallowed : (Call.event input.order input.event).Allowed known) :
    (enqueued (actorStep pc accepts s input).attempts conn).filterMap (hears pc services) =
      (enqueued s.attempts conn).filterMap (hears pc services) ++
        (enqueued (answered accepts s.attempts.length (offers pc s (.event input.order input.event)))
          conn).filterMap (hears pc services) := by
  obtain ⟨cs, hcalls, hcleanup, -⟩ := stepCalls_eq pc accepts s input
  have hlegal : Legal known (stepCalls pc accepts s input) := by
    have h := (legal_stepCalls pc accepts known s input []).mpr ⟨hallowed, trivial⟩
    rwa [List.append_nil] at h
  rw [hcalls] at hlegal
  have hevent := attempts_of_call pc accepts hs.symmetric hanswered (.event input.order input.event)
  have hrest := attempts_of_calls pc accepts (sound_exec pc accepts hs hallowed) hlegal.2
    (answered_exec pc accepts hanswered (.event input.order input.event))
  have hquiet : ∀ n, (enqueued (answered accepts n (offersOf pc accepts
      (exec pc accepts s (.event input.order input.event)) cs)) conn).filterMap
        (hears pc services) = [] := by
    intro n
    have hsub := hears_sublist pc conn services (answered accepts n (offersOf pc accepts
      (exec pc accepts s (.event input.order input.event)) cs))
    rw [map_frame_answered, heard_cleanup hpc hcleanup] at hsub
    exact List.sublist_nil.mp hsub
  rw [actorStep_eq, hcalls, execs_cons, hrest, hevent, enqueued_append, enqueued_append,
    List.filterMap_append, List.filterMap_append, hquiet, List.append_nil]

theorem unrefused_of_writer {known : List ConnectionId} {s : ServerState} {input : Input}
    (hs : Sound known s.toRoutingState) (hanswered : Answered accepts s)
    (hw : conn ∈ (actorStep pc accepts s input).writers) :
    conn ∉ refusals (answered accepts s.attempts.length
      (offers pc s (.event input.order input.event))) := by
  obtain ⟨cs, hcalls, hcleanup, hoverflow⟩ := stepCalls_eq pc accepts s input
  rw [actorStep_eq, hcalls, execs_cons] at hw
  intro hrefused
  refine (writers_cleanup hcleanup hw).2 input.order (hoverflow conn ?_)
  have hcall := overflowed_of_call pc accepts (c := .event input.order input.event)
    hs.symmetric hanswered nofun
  exact hcall ▸ List.mem_append_right _ hrefused

theorem prefix_of_sublist_toList {α : Type} {l : List α} {o : Option α} (h : l.Sublist o.toList) :
    l <+: o.toList := by
  cases o with
  | none =>
    rw [List.sublist_nil.mp h]
    exact List.nil_prefix
  | some a =>
    obtain rfl | rfl := List.sublist_singleton.mp h
    · exact List.nil_prefix
    · exact List.prefix_refl _

theorem hears_step (hpc : pc.ControlRoundTrip) {known : List ConnectionId} {s : ServerState}
    {input : Input} (hs : Sound known s.toRoutingState) (hanswered : Answered accepts s)
    (hallowed : (Call.event input.order input.event).Allowed known)
    (happly : apart pc conn services s.toRoutingState input.event = true) :
    ∃ new, (enqueued (actorStep pc accepts s input).attempts conn).filterMap (hears pc services) =
        (enqueued s.attempts conn).filterMap (hears pc services) ++ new ∧
      (conn ∉ s.writers → new = []) ∧
      new <+: (ruling pc conn services s.toRoutingState input.event).toList ∧
      (conn ∈ s.writers → conn ∈ (actorStep pc accepts s input).writers →
        new = (ruling pc conn services s.toRoutingState input.event).toList) := by
  have hoffered : (offers pc s (.event input.order input.event)).filterMap
      (heard pc conn (reply services)) = if conn ∈ s.writers then
        (ruling pc conn services s.toRoutingState input.event).toList else [] := by
    rw [heard_offers hpc hs.symmetric, answers_event happly]
  have hsub := hears_sublist pc conn services
    (answered accepts s.attempts.length (offers pc s (.event input.order input.event)))
  rw [map_frame_answered, hoffered] at hsub
  refine ⟨_, hears_actorStep accepts conn services hpc hs hanswered hallowed, fun hw => ?_, ?_,
    fun hw hlater => ?_⟩
  · rw [if_neg hw] at hsub
    exact List.sublist_nil.mp hsub
  · -- there is at most one answer, so that a part of them is a first part
    apply prefix_of_sublist_toList
    split at hsub
    · exact hsub
    · exact hsub.trans (List.nil_sublist _)
  · rw [hears_of_unrefused (unrefused_of_writer hs hanswered hlater), map_frame_answered, hoffered,
      if_pos hw]

theorem told_step (hpc : pc.ControlRoundTrip) {known : List ConnectionId} {s : ServerState}
    {input : Input} {verdicts : List (Uuid × Option UInt16)} (hs : Sound known s.toRoutingState)
    (hanswered : Answered accepts s) (h : Told pc conn services known s verdicts)
    (hallowed : (Call.event input.order input.event).Allowed known)
    (happly : apart pc conn services s.toRoutingState input.event = true) :
    Told pc conn services ((Call.event input.order input.event).opens known)
      (actorStep pc accepts s input)
      (verdicts ++ (ruling pc conn services s.toRoutingState input.event).toList) := by
  obtain ⟨new, hnew, hunheard, hinitial, hcomplete⟩ :=
    hears_step hpc hs hanswered hallowed happly
  -- of a connection that is not known yet no frame can come
  have hstranger : conn ∉ known →
      ruling pc conn services s.toRoutingState input.event = none := by
    intro hconn
    cases hevent : input.event with
    | frame d wire payload =>
      rw [hevent] at hallowed
      have hd : d ≠ conn := fun hd => hconn (hd ▸ hallowed)
      rw [ruling, asks_frame, if_neg hd]
      rfl
    | _ => rfl
  by_cases hw : conn ∈ s.writers
  · have hall := h.complete hw
    refine ⟨?_, fun hlater => ?_, fun hconn => ?_⟩
    · rw [hnew, hall]
      exact List.prefix_append_right_inj _ |>.mpr hinitial
    · rw [hnew, hall, hcomplete hw hlater]
    · have hconn : conn ∉ known := fun hmem => hconn (mem_opens _ hmem)
      rw [h.silent hconn, hstranger hconn]
      rfl
  · rw [hunheard hw, List.append_nil] at hnew
    refine ⟨?_, fun hlater => ?_, fun hconn => ?_⟩
    · rw [hnew]
      exact h.initial.trans (List.prefix_append _ _)
    · -- it has joined in this step, so nothing was asked before
      obtain ⟨cs, hcalls, hcleanup, -⟩ := stepCalls_eq pc accepts s input
      rw [actorStep_eq, hcalls, execs_cons] at hlater
      have hjoined := (mem_writers_exec pc accepts s _ conn).mp
        (writers_cleanup hcleanup hlater).1
      obtain hjoined | ⟨hw', -⟩ := hjoined
      · have hconn := joining_notMem hallowed hjoined
        have hnone := h.initial
        rw [h.silent hconn] at hnone
        rw [hnew, List.prefix_nil.mp hnone, h.silent hconn, hstranger hconn]
        rfl
      · exact absurd hw' hw
    · have hconn : conn ∉ known := fun hmem => hconn (mem_opens _ hmem)
      rw [h.silent hconn, hstranger hconn]
      rfl

theorem told_run (hpc : pc.ControlRoundTrip) {known : List ConnectionId} {s : ServerState}
    {inputs : List Input} {verdicts : List (Uuid × Option UInt16)}
    (hs : Sound known s.toRoutingState) (hanswered : Answered accepts s)
    (h : Told pc conn services known s verdicts) (horderly : Orderly known inputs)
    (hapart : ∀ front input, front ++ [input] <+: inputs →
      apart pc conn services (front.foldl (actorStep pc accepts) s).toRoutingState input.event = true) :
    ∃ known', Told pc conn services known' (inputs.foldl (actorStep pc accepts) s)
      (verdicts ++ rulings pc accepts conn services s inputs) := by
  induction inputs generalizing known s verdicts with
  | nil =>
    rw [rulings, List.append_nil]
    exact ⟨known, h⟩
  | cons input inputs ih =>
    have hallowed := orderly_cons.mp horderly
    have happly := hapart [] input (by simp)
    have hsound := sound_actorStep pc accepts hs hallowed.1
    have hanswered' : Answered accepts (actorStep pc accepts s input) := by
      rw [actorStep_eq]
      exact answered_execs pc accepts hanswered _
    obtain ⟨known', hrest⟩ := ih hsound hanswered'
      (told_step hpc hs hanswered h hallowed.1 happly) hallowed.2
      fun front i hfront => hapart (input :: front) i (List.cons_prefix_cons.mpr ⟨rfl, hfront⟩)
    refine ⟨known', ?_⟩
    rw [rulings, ← List.append_assoc]
    exact hrest

theorem map_fst_rulings (s : ServerState) (inputs : List Input) :
    (rulings pc accepts conn services s inputs).map Prod.fst =
      (inputs.filterMap fun i => asks pc conn i.event).filter (· ∈ services) := by
  induction inputs generalizing s with
  | nil => rfl
  | cons input inputs ih =>
    rw [rulings, List.map_append, ih, ruling]
    cases hasks : asks pc conn input.event with
    | none => simp [hasks]
    | some u => by_cases hu : u ∈ services <;> simp [hasks, hu, Option.filter]

theorem declaration_of_ruling {s : ServerState} {inputs : List Input} {n : Nat} {u : Uuid}
    {v : Option UInt16} (h : (rulings pc accepts conn services s inputs)[n]? = some (u, v)) :
    ∃ front input rest, inputs = front ++ input :: rest ∧ asks pc conn input.event = some u ∧
      v = verdict (front.foldl (actorStep pc accepts) s).toRoutingState conn u ∧
      (rulings pc accepts conn services s front).length = n := by
  induction inputs generalizing s n with
  | nil => cases h
  | cons input inputs ih =>
    rw [rulings] at h
    cases hruling : ruling pc conn services s.toRoutingState input.event with
    | none =>
      rw [hruling, Option.toList_none, List.nil_append] at h
      obtain ⟨front, i, rest, rfl, hasks, hv, hn⟩ := ih h
      refine ⟨input :: front, i, rest, rfl, hasks, hv, ?_⟩
      rw [rulings, hruling, Option.toList_none, List.nil_append, hn]
    | some r =>
      rw [hruling, Option.toList_some, List.singleton_append] at h
      cases n with
      | zero =>
        cases h
        obtain ⟨w, hw, he⟩ := Option.map_eq_some_iff.mp hruling
        cases he
        exact ⟨[], input, inputs, rfl, (Option.filter_eq_some_iff.mp hw).1, rfl, rfl⟩
      | succ n =>
        obtain ⟨front, i, rest, rfl, hasks, hv, hn⟩ := ih h
        refine ⟨input :: front, i, rest, rfl, hasks, hv, ?_⟩
        rw [rulings, hruling, Option.toList_some, List.singleton_append, List.length_cons, hn]

end Runs

section Wires

variable {Q : Type} {net : Setting Q} {fits : ConnectionId → WriteMessage → Prop}
  {Carries : ConnectionId → Q → List WriteMessage → Prop} {x : System Q}

/-- No declaration of another pane for one of the services is processed while the
connection is their first provider. -/
def unmixed (net : Setting Q) (conn : ConnectionId) (services : List Uuid) (x : System Q) :
    Label → Bool
  | .act _ => x.queue.head?.all (apart net.pc conn services x.server.toRoutingState)
  | _ => true

theorem apart_reached (hlink : ∀ c, Faithful (net.link c) (fits c) (Carries c))
    (hx : Reached net (fun x label => unmixed net conn services x label = true) x) :
    ∀ front input, front ++ [input] <+: x.past →
      apart net.pc conn services (actorLoop net.pc net.accepts front).toRoutingState
        input.event = true := by
  induction hx with
  | start hx =>
    cases hx
    exact fun front input h => absurd (List.prefix_nil.mp h) (by simp)
  | @step x y label hx hok hstep ih =>
    cases label with
    | wire c action =>
      obtain ⟨⟨w, posted⟩, -, hy⟩ := Option.bind_eq_some_iff.mp hstep
      cases hy
      exact ih
    | act order =>
      simp only [step_wires, System.step, System.act] at hstep
      split at hstep
      · cases hstep
      · next event queue hqueue =>
        cases hstep
        intro front input hfront
        obtain hfront | hfront := List.prefix_concat_iff.mp hfront
        · obtain ⟨rfl, hinput⟩ := List.append_inj' hfront rfl
          cases hinput
          rw [unmixed, hqueue] at hok
          rw [← (flows_reached hlink hx).server]
          exact hok
        · exact ih front input hfront

theorem hears_greeting (hpc : pc.ControlRoundTrip) (phase : Phase) :
    (greeting pc phase).filterMap (hears pc services) = [] := by
  obtain ⟨bytes, hto, hfrom⟩ := hpc (.lifecycle .ready)
  cases phase <;> simp [greeting, hto, hears, arrived, classifyFrame, hfrom, outcome, reply]

theorem heard_initial (hlink : ∀ c, Faithful (net.link c) (fits c) (Carries c))
    (hpc : net.pc.ControlRoundTrip)
    (hx : Reached net (fun x label => unmixed net conn services x label = true) x)
    (hfits : ∀ f ∈ (x.wires conn).wrote, fits conn f) :
    (x.wires conn).delivered.filterMap (outcome services) <+:
      rulings net.pc net.accepts conn services Server.new x.past := by
  have hflows := flows_reached hlink hx
  obtain ⟨known, gone, hposted, -⟩ := hflows.posted
  obtain ⟨known', gone', hpast⟩ := hposted.initially (List.prefix_append _ _)
  have hsteady : Steady net.pc net.accepts known' gone' x.past := steady_of_posted hpast rfl
  obtain ⟨_, htold⟩ := told_run hpc sound_new (answered_new net.accepts) told_new
    (orderly_of_legal hsteady.legal) (apart_reached hlink hx)
  have hinitial := htold.initial
  have hserver : x.past.foldl (actorStep net.pc net.accepts) Server.new = x.server :=
    hflows.server.symm
  rw [List.nil_append, hserver] at hinitial
  obtain ⟨front, pending, hwrote, hdelivered, -⟩ := (hflows.wires conn).down hfits
  have hfront : front <+: (x.wires conn).wrote ++ (x.wires conn).channel := by
    rw [hwrote, List.append_assoc]
    exact List.prefix_append _ _
  have hheard := hfront.filterMap (hears net.pc services)
  rw [hflows.channels conn, List.filterMap_append, hears_greeting hpc, List.nil_append] at hheard
  rw [hdelivered, List.filterMap_filterMap]
  exact hheard.trans hinitial

theorem asks_initial (hlink : ∀ c, Faithful (net.link c) (fits c) (Carries c))
    {ok : System Q → Label → Prop} (hx : Reached net ok x)
    (hfits : ∀ f ∈ (x.wires conn).taken, fits conn f) :
    (x.past.filterMap fun i => asks net.pc conn i.event) <+:
      (x.wires conn).taken.filterMap (declared net.pc) := by
  obtain ⟨pending, htaken, -⟩ := ((flows_reached hlink hx).wires conn).up hfits
  have hasks : (x.past.filterMap fun i => asks net.pc conn i.event) =
      (framesOf conn (x.past.map Input.event)).filterMap (declared net.pc) := by
    rw [framesOf, List.filterMap_map, List.filterMap_filterMap]
    rfl
  rw [hasks, htaken, System.events, framesOf_append, List.append_assoc, List.filterMap_append]
  exact List.prefix_append _ _

end Wires

end Pane.Verdicts
