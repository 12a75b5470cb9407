import Mathlib.Data.List.Induction
import Pane.GhostConnections

namespace Pane.SteadyRuns

open Pane.HashTable Pane.Messages Pane.Routing Pane.Server Pane.ServerFrame Pane.ServerActor
open Pane.RouteSymmetry Pane.RouteTable Pane.Offers Pane.RoutePipes Pane.Attempts
open Pane.GhostConnections

variable (pc : Postcard) (accepts : Nat → Bool)

def Unrefused (s : ServerState) : Prop := ∀ a ∈ s.attempts, a.accepted = true

/-- The calls of a run in which nothing is torn down by overflow. -/
def calls (inputs : List Input) : List Call := inputs.map fun i => .event i.order i.event

theorem orderly_of_legal {known : List ConnectionId} {inputs : List Input}
    (h : Legal known (calls inputs)) : Orderly known inputs := by
  induction inputs generalizing known with
  | nil => trivial
  | cons input inputs ih => exact orderly_cons.mpr ⟨h.1, ih h.2⟩

theorem attempts_exec (s : ServerState) (c : Call) :
    s.attempts <+: (exec pc accepts s c).attempts := by
  apply grows_exec pc accepts (P := fun as _ => s.attempts <+: as)
  · exact fun as _ _ has => has.trans (List.prefix_append as _)
  · exact fun _ _ _ has => has
  · exact List.prefix_refl _

theorem attempts_execs (s : ServerState) (cs : List Call) :
    s.attempts <+: (execs pc accepts cs s).attempts := by
  induction cs generalizing s with
  | nil => exact List.prefix_refl _
  | cons c cs ih => exact (attempts_exec pc accepts s c).trans (ih _)

variable {pc accepts}

theorem unrefused_of_execs {s : ServerState} {cs : List Call}
    (h : Unrefused (execs pc accepts cs s)) : Unrefused s :=
  fun a ha => h a ((attempts_execs pc accepts s cs).subset ha)

theorem overflowTeardown_exec {s : ServerState} (c : Call)
    (h : Unrefused s → s.overflowTeardown = []) :
    Unrefused (exec pc accepts s c) → (exec pc accepts s c).overflowTeardown = [] := by
  apply grows_exec pc accepts
    (P := fun as overflowed => (∀ a ∈ as, a.accepted = true) → overflowed = [])
  · intro as overflowed f has hall
    rw [if_pos (hall ⟨f, accepts as.length⟩ (by simp))]
    exact has (fun a ha => hall a (List.mem_append_left _ ha))
  · exact fun _ _ _ _ _ => rfl
  · exact h

theorem runCalls_of_unrefused {s : ServerState} {inputs : List Input}
    (hs : Unrefused s → s.overflowTeardown = [])
    (h : Unrefused (execs pc accepts (runCalls pc accepts s inputs) s)) :
    runCalls pc accepts s inputs = calls inputs := by
  induction inputs generalizing s with
  | nil => rfl
  | cons input inputs ih =>
    rw [runCalls, execs_append, ← actorStep_eq] at h
    have hstep := unrefused_of_execs h
    have hquiet : Unrefused (exec pc accepts s (.event input.order input.event)) →
        (exec pc accepts s (.event input.order input.event)).overflowTeardown = [] :=
      overflowTeardown_exec _ hs
    have hnone : (processEvent pc accepts input.order s input.event).overflowTeardown = [] := by
      apply hquiet
      rw [actorStep_eq] at hstep
      exact unrefused_of_execs hstep
    have hcalls : stepCalls pc accepts s input = [.event input.order input.event] := by
      simp only [stepCalls, hnone, if_true]
    have hone : actorStep pc accepts s input = exec pc accepts s (.event input.order input.event) := by
      rw [actorStep_eq, hcalls, execs_cons, execs_nil]
    rw [runCalls, hcalls, ih (hone ▸ hquiet) h]
    rfl

theorem unrefused_initially {front inputs : List Input} (hfront : front <+: inputs)
    (h : Unrefused (actorLoop pc accepts inputs)) : Unrefused (actorLoop pc accepts front) := by
  obtain ⟨rest, rfl⟩ := hfront
  rw [actorLoop, List.foldl_append, foldl_actorStep] at h
  exact unrefused_of_execs h

theorem actorLoop_of_unrefused {inputs : List Input} (h : Unrefused (actorLoop pc accepts inputs)) :
    actorLoop pc accepts inputs = execs pc accepts (calls inputs) Server.new := by
  rw [actorLoop_eq] at h ⊢
  rw [runCalls_of_unrefused (fun _ => rfl) h]

/-- What `accept` and the reader threads post: a connection joins once, then come
its frames, and `Disconnected` is the last that is heard of it. -/
inductive Posted : List ConnectionId → List ConnectionId → List ServerEvent → Prop
  | none : Posted [] [] []
  | join {known gone events} (conn : ConnectionId) (hello : Hello) (h : Posted known gone events)
    (hnew : conn ∉ known) : Posted (conn :: known) gone (events ++ [.newConnection conn hello])
  | frame {known gone events} (conn : ConnectionId) (service : UInt16) (payload : Bytes)
    (h : Posted known gone events) (hknown : conn ∈ known) (hgone : conn ∉ gone) :
    Posted known gone (events ++ [.frame conn service payload])
  | leave {known gone events} (conn : ConnectionId) (h : Posted known gone events)
    (hknown : conn ∈ known) (hgone : conn ∉ gone) :
    Posted known (conn :: gone) (events ++ [.disconnected conn])

theorem Posted.gone_known {known gone : List ConnectionId} {events : List ServerEvent}
    (h : Posted known gone events) {conn : ConnectionId} (hconn : conn ∈ gone) : conn ∈ known := by
  induction h with
  | none => exact hconn
  | join d hello _ _ ih => exact List.mem_cons_of_mem d (ih hconn)
  | frame d service payload _ _ _ ih => exact ih hconn
  | leave d _ hknown _ ih =>
    obtain rfl | hconn := List.mem_cons.mp hconn
    · exact hknown
    · exact ih hconn

theorem Posted.left {known gone : List ConnectionId} {events : List ServerEvent}
    (h : Posted known gone events) {c : ConnectionId} (hc : .disconnected c ∈ events) : c ∈ gone := by
  induction h with
  | none => cases hc
  | join d hello _ _ ih => exact ih (by simpa using hc)
  | frame d service payload _ _ _ ih => exact ih (by simpa using hc)
  | leave d _ _ _ ih =>
    obtain hc | hc := List.mem_append.mp hc
    · exact List.mem_cons_of_mem d (ih hc)
    · cases List.mem_singleton.mp hc
      exact List.mem_cons_self

theorem Posted.initially {known gone : List ConnectionId} {events front : List ServerEvent}
    (h : Posted known gone events) (hfront : front <+: events) :
    ∃ known' gone', Posted known' gone' front := by
  induction h with
  | none =>
    obtain rfl := List.prefix_nil.mp hfront
    exact ⟨[], [], .none⟩
  | join conn hello h hnew ih =>
    obtain rfl | hfront := List.prefix_concat_iff.mp hfront
    · exact ⟨_, _, .join conn hello h hnew⟩
    · exact ih hfront
  | frame conn service payload h hknown hgone ih =>
    obtain rfl | hfront := List.prefix_concat_iff.mp hfront
    · exact ⟨_, _, .frame conn service payload h hknown hgone⟩
    · exact ih hfront
  | leave conn h hknown hgone ih =>
    obtain rfl | hfront := List.prefix_concat_iff.mp hfront
    · exact ⟨_, _, .leave conn h hknown hgone⟩
    · exact ih hfront

theorem inputs_concat {inputs : List Input} {events : List ServerEvent} {event : ServerEvent}
    (h : inputs.map Input.event = events ++ [event]) :
    ∃ front order, inputs = front ++ [⟨event, order⟩] ∧ front.map Input.event = events := by
  obtain ⟨front, back, rfl, hfront, hback⟩ := List.map_eq_append_iff.mp h
  obtain ⟨last, rfl, rfl⟩ := List.map_eq_singleton_iff.mp hback
  exact ⟨front, last.order, rfl, hfront⟩

variable (pc accepts) in
/-- The state after some inputs, of which none led to a teardown. -/
def after (inputs : List Input) : ServerState := execs pc accepts (calls inputs) Server.new

theorem calls_append (inputs more : List Input) : calls (inputs ++ more) = calls inputs ++ calls more :=
  List.map_append

theorem after_concat (inputs : List Input) (input : Input) :
    after pc accepts (inputs ++ [input]) =
      exec pc accepts (after pc accepts inputs) (.event input.order input.event) := by
  rw [after, calls_append, execs_append]
  rfl

variable (pc accepts) in
/-- Who has a writer is who joined and did not leave, and these are the ones that
the server hears from. -/
structure Steady (known gone : List ConnectionId) (inputs : List Input) : Prop where
  legal : Legal [] (calls inputs)
  opened : opened [] (calls inputs) = known
  writers : ∀ c, c ∈ (after pc accepts inputs).writers ↔ c ∈ known ∧ c ∉ gone
  attended : ∀ p ∈ history pc accepts Server.new (calls inputs), Attended pc p.1 p.2

theorem Steady.concat {known gone known' gone' : List ConnectionId} {inputs : List Input}
    {input : Input} (h : Steady pc accepts known gone inputs)
    (hallowed : (Call.event input.order input.event).Allowed known)
    (hopens : (Call.event input.order input.event).opens known = known')
    (hwriters : ∀ c, (joining (.event input.order input.event) = some c ∨ (c ∈ known ∧ c ∉ gone) ∧
      leaving (.event input.order input.event) ≠ some c) ↔ c ∈ known' ∧ c ∉ gone')
    (hattended : ∀ conn ∈ applicant pc (.event input.order input.event), conn ∈ known ∧ conn ∉ gone) :
    Steady pc accepts known' gone' (inputs ++ [input]) := by
  refine ⟨?_, ?_, fun c => ?_, fun p hp => ?_⟩
  · rw [calls_append, legal_append, h.opened]
    exact ⟨h.legal, hallowed, trivial⟩
  · have hopened := h.opened
    rw [ServerActor.opened] at hopened ⊢
    rw [calls_append, List.foldl_append, hopened]
    exact hopens
  · rw [after_concat, mem_writers_exec, h.writers, hwriters]
  · rw [calls_append, history_append] at hp
    obtain hp | hp := List.mem_append.mp hp
    · exact h.attended p hp
    · obtain rfl := List.mem_singleton.mp hp
      exact fun conn hconn => (h.writers conn).mpr (hattended conn hconn)

theorem applicant_frame {order : HashOrder} {sender conn : ConnectionId} {service : UInt16}
    {payload : Bytes} (h : conn ∈ applicant pc (.event order (.frame sender service payload))) :
    conn = sender := by
  obtain ⟨msg, hmsg⟩ : ∃ msg,
      controlOf pc (.event order (.frame sender service payload)) = some (conn, msg) := by
    rw [applicant] at h
    split at h
    · next hcontrol =>
      cases h
      exact ⟨_, hcontrol⟩
    · next hcontrol =>
      cases h
      exact ⟨_, hcontrol⟩
    · cases h
  obtain ⟨_, _, hcall, -⟩ := controlOf_eq_some hmsg
  cases hcall
  rfl

theorem steady_of_posted {known gone : List ConnectionId} {events : List ServerEvent}
    (h : Posted known gone events) {inputs : List Input} (hinputs : inputs.map Input.event = events) :
    Steady pc accepts known gone inputs := by
  induction h generalizing inputs with
  | none =>
    obtain rfl := List.map_eq_nil_iff.mp hinputs
    refine ⟨trivial, rfl, fun c => ?_, List.forall_mem_nil _⟩
    simp [after, calls, Server.new]
  | join conn hello h hnew ih =>
    obtain ⟨front, order, rfl, hfront⟩ := inputs_concat hinputs
    refine (ih hfront).concat hnew rfl (fun c => ?_) fun d hd => by cases hd
    have hfresh : conn ∉ _ := fun hgone => hnew (h.gone_known hgone)
    simp only [joining, leaving, Option.some.injEq, List.mem_cons]
    by_cases hc : c = conn
    · simp [hc, hfresh]
    · simp [hc, Ne.symm hc]
  | frame conn service payload h hknown hgone ih =>
    obtain ⟨front, order, rfl, hfront⟩ := inputs_concat hinputs
    refine (ih hfront).concat hknown rfl (fun c => ?_) ?_
    · simp [joining, leaving]
    · intro d hd
      rw [applicant_frame hd]
      exact ⟨hknown, hgone⟩
  | leave conn h hknown hgone ih =>
    obtain ⟨front, order, rfl, hfront⟩ := inputs_concat hinputs
    refine (ih hfront).concat hknown rfl (fun c => ?_) fun d hd => by cases hd
    simp only [joining, leaving, reduceCtorEq, false_or, List.mem_cons, not_or, ne_eq,
      Option.some.injEq]
    rw [and_assoc, and_comm (a := c ∉ _), eq_comm]

theorem Steady.manned (hpc : pc.ControlRoundTrip) {known gone : List ConnectionId}
    {inputs : List Input} (h : Steady pc accepts known gone inputs) {cs : List Call}
    (hcs : cs <+: calls inputs) : Manned (ServerActor.opened [] cs) (execs pc accepts cs Server.new) := by
  refine manned_execs accepts hpc manned_new (legal_initially hcs h.legal) fun p hp => ?_
  apply h.attended
  obtain ⟨rest, hrest⟩ := hcs
  rw [← hrest, history_append]
  exact List.mem_append_left _ hp

theorem filterMap_initial {α β : Type} {f g : α → Option β} {l : List α}
    (hsub : ∀ a ∈ l, ∀ b, f a = some b → g a = some b)
    (hcut : ∀ before a later, l = before ++ a :: later → g a ≠ none → f a = none →
      ∀ b ∈ later, f b = none) : l.filterMap f <+: l.filterMap g := by
  induction l with
  | nil => exact List.prefix_refl _
  | cons a l ih =>
    have hrest := ih (fun b hb => hsub b (List.mem_cons_of_mem a hb))
      (fun before b later he => hcut (a :: before) b later (by rw [he]; rfl))
    cases hf : f a with
    | some b =>
      have hg := hsub a List.mem_cons_self b hf
      rw [List.filterMap_cons_some hf, List.filterMap_cons_some hg]
      exact List.cons_prefix_cons.mpr ⟨rfl, hrest⟩
    | none =>
      rw [List.filterMap_cons_none hf]
      cases hg : g a with
      | none => rwa [List.filterMap_cons_none hg]
      | some b =>
        have hnone := hcut [] a l rfl (by rw [hg]; exact Option.some_ne_none b) hf
        rw [List.filterMap_eq_nil_iff.mpr hnone]
        exact List.nil_prefix

def sentBy (k : Endpoint) : ServerEvent → Option Bytes
  | .frame conn service payload => if (conn, service) = k then some payload else none
  | _ => none

def sentIn (k : Endpoint) (p : ServerState × Call) : Option Bytes :=
  match p.2 with
  | .event _ event => sentBy k event
  | _ => none

theorem filterMap_sentIn (k : Endpoint) (inputs : List Input) (s : ServerState) :
    (history pc accepts s (calls inputs)).filterMap (sentIn k) =
      inputs.filterMap (fun i => sentBy k i.event) := by
  induction inputs generalizing s with
  | nil => rfl
  | cons input inputs ih =>
    have hhistory : history pc accepts s (calls (input :: inputs)) =
        (s, .event input.order input.event) ::
          history pc accepts (exec pc accepts s (.event input.order input.event)) (calls inputs) := rfl
    rw [hhistory, List.filterMap_cons, List.filterMap_cons, ih]
    rfl

theorem sentBy_eq_some {k : Endpoint} {event : ServerEvent} {payload : Bytes}
    (h : sentBy k event = some payload) : event = .frame k.1 k.2 payload := by
  cases event with
  | frame conn service bytes =>
    rw [sentBy] at h
    split at h
    · next hk =>
      cases h
      rw [← hk]
    · cases h
  | _ => cases h

theorem sentIn_eq_some {k : Endpoint} {p : ServerState × Call} {payload : Bytes}
    (h : sentIn k p = some payload) : ∃ order, p.2 = .event order (.frame k.1 k.2 payload) := by
  obtain ⟨s, c⟩ := p
  cases c with
  | event order event =>
    obtain rfl := sentBy_eq_some h
    exact ⟨order, rfl⟩
  | _ => cases h

theorem carried_eq_some {k : Endpoint} {r : Route} {p : ServerState × Call} {payload : Bytes}
    (h : carried k r p = some payload) :
    sentIn (r.peer k.1) p = some payload ∧ p.1.routingTable.lookup (r.peer k.1) = some r := by
  obtain ⟨s, c⟩ := p
  cases c with
  | event order event =>
    cases event with
    | frame conn service bytes =>
      simp only [carried] at h
      split at h
      · next hcarried =>
        obtain ⟨-, hpeer, hr, -⟩ := hcarried
        rw [hpeer] at hr
        refine ⟨?_, hr⟩
        simp only [sentIn, sentBy, if_pos hpeer]
        exact h
      · cases h
    | _ => cases h
  | _ => cases h

theorem session_ne_zero {session : UInt16} (h : 1 ≤ session) : session ≠ 0 := by
  rintro rfl
  exact absurd h (by decide)

theorem carried_of_sentIn {known : List ConnectionId} {p : ServerState × Call} {k : Endpoint}
    {r : Route} {payload : Bytes} (hmanned : Manned known p.1)
    (hr : p.1.routingTable.lookup k = some r) (h : sentIn k p = some payload) :
    carried (r.peer k.1) r p = some payload := by
  obtain ⟨order, hcall⟩ := sentIn_eq_some h
  obtain ⟨hback, hpeer, -⟩ := peer_peer hmanned.sound.symmetric hr
  have hpositive := session_ne_zero (hmanned.sound.symmetric.positive k r hr)
  have hwriter := (hmanned.housed.routes _ r hback).1
  simp only [carried, hcall]
  exact if_pos ⟨hpositive, hpeer.symm, hr, hback, hwriter⟩

theorem mem_calls_of_sentIn {k : Endpoint} {p : ServerState × Call} {inputs : List Input}
    (h : sentIn k p ≠ none) (hp : p.2 ∈ calls inputs) : ∃ i ∈ inputs, sentBy k i.event ≠ none := by
  obtain ⟨i, hi, he⟩ := List.mem_map.mp hp
  refine ⟨i, hi, ?_⟩
  rwa [sentIn, ← he] at h

theorem calls_before {k : Endpoint} {p : ServerState × Call} {start : List Input}
    {cs pre post : List Call} (hsent : sentIn k p ≠ none) (hcs : cs = pre ++ p.2 :: post)
    (hstart : calls start <+: cs) (hsilent : ∀ i ∈ start, sentBy k i.event = none) :
    calls start <+: pre := by
  have hpre : pre <+: cs := ⟨p.2 :: post, hcs.symm⟩
  have hcall : pre ++ [p.2] <+: cs := ⟨post, by rw [hcs, List.append_assoc]; rfl⟩
  obtain h | h := Nat.lt_or_ge pre.length (calls start).length
  · have hlength : (pre ++ [p.2]).length ≤ (calls start).length := by
      rw [List.length_append, List.length_singleton]
      exact h
    have hmem : p.2 ∈ calls start :=
      (List.prefix_of_prefix_length_le hcall hstart hlength).subset (by simp)
    obtain ⟨i, hi, hne⟩ := mem_calls_of_sentIn hsent hmem
    exact absurd (hsilent i hi) hne
  · exact List.prefix_of_prefix_length_le hstart hpre h

theorem deliveries_initial (hpc : pc.ControlRoundTrip) {known gone : List ConnectionId}
    {inputs front : List Input} (h : Steady pc accepts known gone inputs) {k : Endpoint} {r : Route}
    (hfront : front <+: inputs) (hr : (after pc accepts front).routingTable.lookup k = some r)
    (hfirst : (∃ i ∈ inputs, sentBy k i.event ≠ none) → ∃ start, start <+: inputs ∧
      (∀ i ∈ start, sentBy k i.event = none) ∧ k ∈ (after pc accepts start).routingTable) :
    deliveries (after pc accepts inputs) (r.peer k.1) <+:
      inputs.filterMap (fun i => sentBy k i.event) := by
  have hcalls : ∀ {front}, front <+: inputs → calls front <+: calls inputs :=
    fun hfront => hfront.map _
  have hmanned := h.manned hpc (hcalls hfront)
  obtain ⟨hback, hpeer, -⟩ := peer_peer hmanned.sound.symmetric hr
  have hpositive : (r.peer k.1).2 ≠ 0 :=
    session_ne_zero (hmanned.sound.symmetric.positive _ r hback)
  rw [after, deliveries_eq_carried pc accepts h.legal (hcalls hfront) hpositive hback
    (hmanned.housed.routes _ r hback).1, ← filterMap_sentIn k inputs Server.new]
  apply filterMap_initial
  · intro p _ payload hcarried
    have hsent := (carried_eq_some hcarried).1
    rwa [hpeer] at hsent
  · intro before p later hsplit hsent hlost q hq
    by_contra hcarried
    -- the route still stands when the later frame comes, so it stood for the earlier one
    obtain ⟨payload, hpayload⟩ := Option.ne_none_iff_exists'.mp hcarried
    have hstands := (carried_eq_some hpayload).2
    rw [hpeer] at hstands
    obtain ⟨pre, post, hcs, hp, rfl⟩ := history_split pc accepts hsplit
    obtain ⟨pre', hpre', hq⟩ := mem_history pc accepts hq
    have hmem : p.2 ∈ calls inputs := by
      rw [hcs]
      exact List.mem_append_right _ List.mem_cons_self
    obtain ⟨start, hstart, hsilent, hroute⟩ := hfirst (mem_calls_of_sentIn hsent hmem)
    obtain ⟨r₀, hr₀⟩ := Option.isSome_iff_exists.mp (AList.lookup_isSome.mpr hroute)
    have hlong : pre ++ p.2 :: pre' <+: calls inputs := by
      rw [hcs]
      exact (List.prefix_append_right_inj pre).mpr (List.cons_prefix_cons.mpr ⟨rfl, hpre'⟩)
    have hlater : q.1 = execs pc accepts (pre ++ p.2 :: pre') Server.new := by
      rw [hq, execs_append, ← hp, execs_cons]
    rw [hlater] at hstands
    have hwriter := ((h.manned hpc hlong).housed.routes k r hstands).1
    obtain ⟨rfl, hthen⟩ := route_unique pc accepts h.legal
      (calls_before hsent hcs (hcalls hstart) hsilent) (List.prefix_append pre _) hlong hr₀ hstands
      hwriter
    rw [← hp] at hthen
    obtain ⟨lost, hlost'⟩ := Option.ne_none_iff_exists'.mp hsent
    have hmanned' := h.manned hpc (⟨p.2 :: post, hcs.symm⟩ : pre <+: calls inputs)
    rw [← hp] at hmanned'
    rw [carried_of_sentIn hmanned' hthen hlost'] at hlost
    cases hlost

def acceptedSession : ControlMessage → Option UInt16
  | .interestAccepted _ sessionId _ => some sessionId
  | _ => none

theorem route_of_declare {s : RoutingState} (hs : Symmetric s) {conn : ConnectionId}
    {service : Uuid} {m : ConnectionId × ControlMessage} (h : m ∈ declareNotices s conn service)
    {n : UInt16} (hn : acceptedSession m.2 = some n) :
    (m.1, n) ∈ (s.handleDeclareInterest conn service).2.routingTable := by
  rw [declareNotices] at h
  obtain ⟨reason, he⟩ | ⟨-, he⟩ | ⟨p, -, -, -, ⟨-, he⟩ | ⟨-, he⟩⟩ :=
    RoutingState.handleDeclareInterest_cases conn service s <;> rw [he] at h
  · obtain rfl := List.mem_singleton.mp h
    cases hn
  · obtain rfl := List.mem_singleton.mp h
    cases hn
  · obtain rfl := List.mem_singleton.mp h
    cases hn
  · rw [he]
    have hroute : ∀ k, k = (s.freshRoute conn p).consumer ∨ k = (s.freshRoute conn p).provider →
        k ∈ (s.link conn p).routingTable :=
      fun k hk => mem_of_lookup ((lookup_link_iff hs conn p k _).mpr (.inr ⟨rfl, hk⟩))
    obtain rfl | h := List.mem_cons.mp h
    · cases hn
      exact hroute _ (.inl rfl)
    · obtain rfl := List.mem_singleton.mp h
      cases hn
      exact hroute _ (.inr rfl)

theorem acceptedSession_disconnect {order : HashOrder} {s : ServerState} {conn : ConnectionId}
    {m : ConnectionId × ControlMessage} (h : m ∈ disconnectNotices order s conn) :
    acceptedSession m.2 = none := by
  obtain h | h := List.mem_append.mp h
  · unfold watcherNotices at h
    split at h
    · obtain ⟨w, -, rfl⟩ := List.mem_map.mp h
      rfl
    · cases h
  · obtain ⟨peer, -, rfl⟩ := List.mem_map.mp h
    rfl

theorem route_of_notice {s : ServerState} (hs : Symmetric s.toRoutingState) {c : Call}
    {m : ConnectionId × ControlMessage} (h : m ∈ notices pc s c) {n : UInt16}
    (hn : acceptedSession m.2 = some n) : (m.1, n) ∈ (exec pc accepts s c).routingTable := by
  have hdisconnect : ∀ order conn, m ∉ disconnectNotices order s conn := by
    intro order conn h
    cases (acceptedSession_disconnect h).symm.trans hn
  cases c with
  | drain => cases h
  | tearDown order conn => exact absurd h (hdisconnect order conn)
  | event order event =>
    cases event with
    | newConnection conn hello => cases h
    | disconnected conn => exact absurd h (hdisconnect order conn)
    | frame conn service payload =>
      simp only [notices] at h
      split at h
      · next hzero =>
        simp only [controlNotices] at h
        split at h
        · next uuid version hmsg =>
          have hroute := route_of_declare hs h hn
          have hcontrol : controlOf pc (.event order (.frame conn service payload)) =
              some (conn, .declareInterest uuid version) := by simp [controlOf, hzero, hmsg]
          rw [toRoutingState_declaration accepts hcontrol]
          exact hroute
        · simp only [revokeNotices] at h
          split at h
          · cases h
          · obtain rfl | h := List.mem_cons.mp h
            · cases hn
            · obtain rfl := List.mem_singleton.mp h
              cases hn
        · simp only [watchNotices] at h
          split at h
          · cases h
          · obtain rfl := List.mem_singleton.mp h
            cases hn
        · cases h
      · cases h

theorem route_of_acceptance (hpc : pc.ControlRoundTrip) {inputs : List Input}
    (hlegal : Legal [] (calls inputs)) {conn : ConnectionId} {n : UInt16}
    (h : n ∈ (after pc accepts inputs).offered.filterMap (heard pc conn acceptedSession)) :
    ∃ start, start <+: inputs ∧ (conn, n) ∈ (after pc accepts start).routingTable := by
  induction inputs using List.reverseRecOn with
  | nil => cases h
  | append_singleton inputs input ih =>
    rw [calls_append] at hlegal
    obtain ⟨hbefore, -⟩ := (legal_append _ _ _).mp hlegal
    have hs : Symmetric (after pc accepts inputs).toRoutingState :=
      (sound_execs pc accepts sound_new hbefore).symmetric
    rw [after_concat, heard_exec accepts conn acceptedSession hpc hs] at h
    obtain h | h := List.mem_append.mp h
    · obtain ⟨start, hstart, hroute⟩ := ih hbefore h
      exact ⟨start, hstart.trans (List.prefix_append _ _), hroute⟩
    · refine ⟨inputs ++ [input], List.prefix_refl _, ?_⟩
      split at h
      · obtain ⟨m, hm, hmeant⟩ := List.mem_filterMap.mp h
        rw [meant] at hmeant
        split at hmeant
        · next hconn =>
          rw [after_concat, ← hconn]
          exact route_of_notice hs hm hmeant
        · cases hmeant
      · cases h

end Pane.SteadyRuns
