import Pane.Attempts

namespace Pane.OverflowDrain

open Pane.HashTable Pane.Messages Pane.Routing Pane.Server Pane.ServerFrame Pane.ServerActor
open Pane.RouteSymmetry Pane.RouteTable Pane.Offers Pane.RoutePipes Pane.Attempts Pane.PostcardFormat

variable (pc : Postcard) (accepts : Nat → Bool)

/-- Nothing is marked for teardown, and who ever refused a frame has no writer. -/
def Complete (s : ServerState) : Prop :=
  s.overflowTeardown = [] ∧ ∀ a ∈ s.attempts, a.accepted = false → a.frame.conn ∉ s.writers

/-- A teardown of the overflow drain has all its notices accepted. -/
def Undisturbed (s : ServerState) : Call → Prop
  | .tearDown order conn =>
    ∀ a ∈ answered accepts s.attempts.length (offers pc s (.tearDown order conn)), a.accepted = true
  | _ => True

instance (s : ServerState) (c : Call) : Decidable (Undisturbed pc accepts s c) :=
  match c with
  | .tearDown _ _ => inferInstanceAs (Decidable (∀ a ∈ answered accepts _ _, a.accepted = true))
  | .event _ _ => .isTrue trivial
  | .drain => .isTrue trivial

variable {pc accepts} {s : ServerState} {known : List ConnectionId}

theorem refusals_eq_nil {attempts : List Attempt} :
    refusals attempts = [] ↔ ∀ a ∈ attempts, a.accepted = true := by
  rw [refusals, List.map_eq_nil_iff, List.filter_eq_nil_iff]
  simp

theorem mem_refusals {attempts : List Attempt} {a : Attempt} (ha : a ∈ attempts)
    (hrefused : a.accepted = false) : a.frame.conn ∈ refusals attempts :=
  List.mem_map_of_mem (List.mem_filter.mpr ⟨ha, decide_eq_true hrefused⟩)

variable (pc) in
theorem writer_of_offer {c : Call} {f : Outbound} (h : f ∈ offers pc s c) : f.conn ∈ s.writers := by
  rw [offers] at h
  obtain h | h := List.mem_append.mp h
  · obtain ⟨m, -, hm⟩ := List.mem_filterMap.mp h
    split at hm
    · next hw =>
      obtain ⟨bytes, -, rfl⟩ := Option.map_eq_some_iff.mp hm
      exact hw
    · cases hm
  · unfold forwards at h
    split at h
    · split at h
      · cases h
      · obtain ⟨route, -, hw, rfl⟩ := mem_forwarded h
        exact hw
    · cases h

variable (pc accepts) in
/-- What is true between any two calls of a run: who refused a frame and still has a
writer is marked for teardown or is among those who are about to be torn down. -/
structure Marked (known due : List ConnectionId) (s : ServerState) : Prop where
  sound : Sound known s.toRoutingState
  answered : Answered accepts s
  attempted : ∀ a ∈ s.attempts, a.frame.conn ∈ known
  marked : ∀ a ∈ s.attempts, a.accepted = false → a.frame.conn ∈ s.writers →
    a.frame.conn ∈ s.overflowTeardown ∨ a.frame.conn ∈ due

variable (accepts) in
theorem marked_new : Marked accepts [] [] Server.new :=
  ⟨sound_new, answered_new accepts, nofun, nofun⟩

variable (pc) in
theorem marked_exec {due : List ConnectionId} (h : Marked accepts known due s) {c : Call}
    (hc : c.Allowed known) (hdrain : c ≠ .drain) :
    Marked accepts (c.opens known) (due.filter (fun d => leaving c ≠ some d)) (exec pc accepts s c) := by
  have hattempts := attempts_of_call pc accepts h.sound.symmetric h.answered c
  have hoverflow := overflowed_of_call pc accepts h.sound.symmetric h.answered hdrain
  refine ⟨sound_exec pc accepts h.sound hc, answered_exec pc accepts h.answered c, fun a ha => ?_,
    fun a ha hrefused hw => ?_⟩
  · rw [hattempts] at ha
    obtain ha | ha := List.mem_append.mp ha
    · exact mem_opens c (h.attempted a ha)
    · have hf : a.frame ∈ offers pc s c := by
        rw [← map_frame_answered accepts s.attempts.length (offers pc s c)]
        exact List.mem_map_of_mem ha
      exact mem_opens c (h.sound.within.writers _ (writer_of_offer pc hf))
  · rw [hattempts] at ha
    rw [hoverflow, List.mem_append]
    obtain ha | ha := List.mem_append.mp ha
    · rw [mem_writers_exec] at hw
      obtain hjoin | ⟨hw, hstays⟩ := hw
      · exact absurd (h.attempted a ha) (joining_notMem hc hjoin)
      · obtain hmarked | hdue := h.marked a ha hrefused hw
        · exact .inl (.inl hmarked)
        · exact .inr (List.mem_filter.mpr ⟨hdue, decide_eq_true hstays⟩)
    · exact .inl (.inr (mem_refusals ha hrefused))

variable (pc) in
theorem marked_drain (h : Marked accepts known [] s) :
    Marked accepts known s.overflowTeardown (exec pc accepts s .drain) := by
  refine ⟨h.sound, h.answered, h.attempted, fun a ha hrefused hw => .inr ?_⟩
  obtain hmarked | hdue := h.marked a ha hrefused hw
  · exact hmarked
  · cases hdue

variable (pc) in
theorem marked_tearDowns (order : HashOrder) {due conns : List ConnectionId}
    (h : Marked accepts known due s) (hdue : ∀ d ∈ due, d ∈ conns) :
    Marked accepts known [] (execs pc accepts (conns.map (.tearDown order)) s) ∧
      ((execs pc accepts (conns.map (.tearDown order)) s).overflowTeardown = [] ↔
        s.overflowTeardown = [] ∧ ∀ p ∈ history pc accepts s (conns.map (.tearDown order)),
          Undisturbed pc accepts p.1 p.2) := by
  induction conns generalizing s due with
  | nil =>
    obtain rfl : due = [] := List.eq_nil_iff_forall_not_mem.mpr fun d hd => List.not_mem_nil (hdue d hd)
    exact ⟨h, by simp [history]⟩
  | cons conn conns ih =>
    have hfirst := marked_exec pc (c := .tearDown order conn) h trivial fun heq => by cases heq
    have hrest : ∀ d ∈ due.filter (fun d => leaving (.tearDown order conn) ≠ some d), d ∈ conns := by
      intro d hd
      obtain ⟨hd, hne⟩ := List.mem_filter.mp hd
      obtain rfl | hd := List.mem_cons.mp (hdue d hd)
      · exact absurd rfl (of_decide_eq_true hne)
      · exact hd
    obtain ⟨hmarked, hoverflow⟩ := ih hfirst hrest
    have hcall := overflowed_of_call pc accepts (c := .tearDown order conn) h.sound.symmetric h.answered
      fun heq => by cases heq
    refine ⟨hmarked, ?_⟩
    rw [List.map_cons, execs_cons, hoverflow, history, List.forall_mem_cons, hcall,
      List.append_eq_nil_iff, refusals_eq_nil, and_assoc]
    exact Iff.rfl

variable (pc) in
theorem marked_step (h : Marked accepts known [] s) (input : Input)
    (hc : (Call.event input.order input.event).Allowed known) :
    Marked accepts ((Call.event input.order input.event).opens known) [] (actorStep pc accepts s input) ∧
      ((actorStep pc accepts s input).overflowTeardown = [] ↔
        ∀ p ∈ history pc accepts s (stepCalls pc accepts s input), Undisturbed pc accepts p.1 p.2) := by
  have hevent : Undisturbed pc accepts s (.event input.order input.event) := trivial
  have hfirst : Marked accepts ((Call.event input.order input.event).opens known) []
      (processEvent pc accepts input.order s input.event) :=
    marked_exec pc (c := .event input.order input.event) h hc nofun
  rw [actorStep_eq, stepCalls]
  cases hoverflow : (processEvent pc accepts input.order s input.event).overflowTeardown with
  | nil =>
    rw [if_pos rfl]
    refine ⟨hfirst, fun _ p hp => ?_, fun _ => hoverflow⟩
    obtain rfl := List.mem_singleton.mp hp
    exact hevent
  | cons conn conns =>
    rw [if_neg (List.cons_ne_nil _ _)]
    have hdrained := marked_drain pc hfirst
    have hdue : ∀ d ∈ (processEvent pc accepts input.order s input.event).overflowTeardown,
        d ∈ firstOccurrences (conn :: conns) [] := by
      rw [hoverflow]
      exact fun d hd => mem_firstOccurrences hd List.not_mem_nil
    obtain ⟨hmarked, hiff⟩ := marked_tearDowns pc input.order hdrained hdue
    refine ⟨hmarked, hiff.trans ?_⟩
    rw [history, history, List.forall_mem_cons, List.forall_mem_cons]
    exact ⟨fun hall => ⟨hevent, trivial, hall.2⟩, fun hall => ⟨rfl, hall.2.2⟩⟩

theorem complete_of_marked (h : Marked accepts known [] s) :
    Complete s ↔ s.overflowTeardown = [] := by
  refine ⟨fun hs => hs.1, fun hnone => ⟨hnone, fun a ha hrefused hw => ?_⟩⟩
  obtain hmarked | hdue := h.marked a ha hrefused hw
  · rw [hnone] at hmarked
    cases hmarked
  · cases hdue

variable (pc) in
theorem marked_run {inputs : List Input} {input : Input} (h : Marked accepts known [] s)
    (horderly : Orderly known (inputs ++ [input])) :
    ∃ known', Marked accepts known' [] (inputs.foldl (actorStep pc accepts) s) ∧
      (Call.event input.order input.event).Allowed known' := by
  induction inputs generalizing known s with
  | nil => exact ⟨known, h, (orderly_cons.mp horderly).1⟩
  | cons first inputs ih =>
    obtain ⟨hfirst, hrest⟩ := orderly_cons.mp horderly
    exact ih (marked_step pc h first hfirst).1 hrest

/-- At the end of an iteration the overflow teardown is complete exactly if none of
the notices that the teardowns of this iteration offer is refused. -/
theorem overflow_teardown_complete_iff (pc : Postcard) (accepts : Nat → Bool) (inputs : List Input)
    (input : Input) (horderly : Orderly [] (inputs ++ [input])) :
    let s := actorLoop pc accepts inputs
    Complete (actorLoop pc accepts (inputs ++ [input])) ↔
      ∀ p ∈ history pc accepts s (stepCalls pc accepts s input), Undisturbed pc accepts p.1 p.2 := by
  intro s
  obtain ⟨known, hmarked, hallowed⟩ : ∃ known, Marked accepts known [] s ∧ _ :=
    marked_run pc (marked_new accepts) horderly
  obtain ⟨hstep, hiff⟩ := marked_step pc hmarked input hallowed
  have hloop : actorLoop pc accepts (inputs ++ [input]) = actorStep pc accepts s input :=
    List.foldl_append
  rw [hloop, complete_of_marked hstep]
  exact hiff

/-- The writer threads of both ends of a route have ended: their channels refuse what
comes after the two acceptances. -/
def closedAt (i : Nat) : Bool := i < 2

def unheard : Input := ⟨.frame ⟨1⟩ 1 [7], .stored⟩

theorem orderly_unheard : Orderly [] (handshake ++ [unheard]) := by
  simp [handshake, unheard, Orderly]

theorem overflow_teardown_complete_refusal :
    Orderly [] (handshake ++ [unheard]) ∧
      Complete (actorLoop postcard (fun i => i ≠ 2) (handshake ++ [unheard])) ∧
      (actorLoop postcard (fun i => i ≠ 2) (handshake ++ [unheard])).attempts.map Attempt.accepted =
        [true, true, false, true] := by
  refine ⟨orderly_unheard, ?_, by decide +kernel⟩
  exact (overflow_teardown_complete_iff postcard _ handshake unheard orderly_unheard).mpr
    (by decide +kernel)

/-- The consumer is torn down for it, the notice to the provider is refused, and the
provider keeps its writer while it waits for the next event. -/
theorem overflow_teardown_incomplete :
    Orderly [] (handshake ++ [unheard]) ∧
      (actorLoop postcard closedAt (handshake ++ [unheard])).overflowTeardown = [⟨1⟩] ∧
      ⟨1⟩ ∈ (actorLoop postcard closedAt (handshake ++ [unheard])).writers ∧
      ¬ Complete (actorLoop postcard closedAt (handshake ++ [unheard])) := by
  have hmarked : (actorLoop postcard closedAt (handshake ++ [unheard])).overflowTeardown = [⟨1⟩] := by
    decide +kernel
  refine ⟨orderly_unheard, hmarked, by decide +kernel, fun hcomplete => ?_⟩
  rw [hcomplete.1] at hmarked
  cases hmarked

end Pane.OverflowDrain
