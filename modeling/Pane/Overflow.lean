import Pane.OverflowDrain

namespace Pane.Overflow

open Pane.HashTable Pane.Messages Pane.Routing Pane.Server Pane.ServerFrame Pane.ServerActor
open Pane.RouteSymmetry Pane.RouteTable Pane.Offers Pane.RoutePipes Pane.Attempts Pane.PostcardFormat
open Pane.OverflowDrain

variable (pc : Postcard) (accepts : Nat → Bool)

def Settled (attempts : List Attempt) : Prop :=
  attempts.Pairwise (fun a b => a.frame.conn = b.frame.conn → a.accepted = false →
    b.accepted = false)

theorem settled_append {as bs : List Attempt} :
    Settled (as ++ bs) ↔ Settled as ∧ Settled bs ∧
      ∀ a ∈ as, ∀ b ∈ bs, a.frame.conn = b.frame.conn → a.accepted = false →
        b.accepted = false :=
  List.pairwise_append

theorem settled_iff {as : List Attempt} :
    Settled as ↔ ∀ before a after, as = before ++ a :: after → a.accepted = false →
      ∀ b ∈ after, b.frame.conn = a.frame.conn → b.accepted = false := by
  constructor
  · rintro h before a after rfl hrefused b hb hconn
    obtain ⟨hlater, -⟩ := List.pairwise_cons.mp (settled_append.mp h).2.1
    exact hlater b hb hconn.symm hrefused
  · intro h
    induction as with
    | nil => exact List.Pairwise.nil
    | cons a as ih =>
      refine List.pairwise_cons.mpr ⟨fun b hb hconn hrefused => ?_, ih ?_⟩
      · exact h [] a as rfl hrefused b hb hconn.symm
      · exact fun before b after hsplit => h (a :: before) b after (by rw [hsplit]; rfl)

def attemptsIn (s : ServerState) (input : Input) : List Attempt :=
  (actorStep pc accepts s input).attempts.drop s.attempts.length

/-- The answers of one iteration of the actor: a connection that refuses a frame goes on
refusing until the end of the iteration, where it is torn down. One that refused a
notice of the teardowns before is torn down only now, and refuses from the start. -/
def KeepsRefusing (s : ServerState) (input : Input) : Prop :=
  Settled (attemptsIn pc accepts s input) ∧
    ∀ a ∈ attemptsIn pc accepts s input, a.frame.conn ∈ s.overflowTeardown → a.accepted = false

instance (s : ServerState) (input : Input) : Decidable (KeepsRefusing pc accepts s input) :=
  inferInstanceAs (Decidable (List.Pairwise _ _ ∧ _))

def iterations : ServerState → List Input → List (ServerState × Input)
  | _, [] => []
  | s, input :: inputs => (s, input) :: iterations (actorStep pc accepts s input) inputs

section Runs

variable {pc accepts} {known : List ConnectionId} {s : ServerState}

theorem gone_history {c : ConnectionId} {cs : List Call} (hcs : Legal known cs) (hknown : c ∈ known)
    (hgone : c ∉ s.writers) : ∀ p ∈ history pc accepts s cs, c ∉ p.1.writers := by
  induction cs generalizing known s with
  | nil => exact fun p hp => nomatch hp
  | cons call cs ih =>
    refine List.forall_mem_cons.mpr ⟨hgone, ih hcs.2 (mem_opens call hknown) ?_⟩
    rw [mem_writers_exec]
    rintro (hjoin | ⟨hwriter, -⟩)
    · exact joining_notMem hcs.1 hjoin hknown
    · exact hgone hwriter

theorem attempts_actorStep (h : Marked accepts known [] s) {input : Input}
    (hc : (Call.event input.order input.event).Allowed known) :
    attemptsIn pc accepts s input = answered accepts s.attempts.length
        (offersOf pc accepts s (stepCalls pc accepts s input)) ∧
      (actorStep pc accepts s input).attempts = s.attempts ++ attemptsIn pc accepts s input := by
  have hlegal : Legal known (stepCalls pc accepts s input) := by
    have hstep := (legal_stepCalls pc accepts known s input []).mpr ⟨hc, trivial⟩
    rwa [List.append_nil] at hstep
  have hcalls := attempts_of_calls pc accepts h.sound hlegal h.answered
  rw [← actorStep_eq] at hcalls
  rw [attemptsIn, hcalls, List.drop_left]
  exact ⟨rfl, rfl⟩

theorem writer_of_attempt (h : Marked accepts known [] s) {input : Input}
    (hc : (Call.event input.order input.event).Allowed known) {a : Attempt}
    (ha : a ∈ attemptsIn pc accepts s input) (hknown : a.frame.conn ∈ known) :
    a.frame.conn ∈ s.writers := by
  by_contra hgone
  rw [(attempts_actorStep h hc).1] at ha
  have hframe := List.mem_map_of_mem (f := Attempt.frame) ha
  rw [map_frame_answered] at hframe
  obtain ⟨p, hp, hoffer⟩ := List.mem_flatMap.mp hframe
  have hlegal := (legal_stepCalls pc accepts known s input []).mpr ⟨hc, trivial⟩
  rw [List.append_nil] at hlegal
  exact gone_history hlegal hknown hgone p hp (writer_of_offer pc hoffer)

def Noted (s : ServerState) : Prop :=
  ∀ c ∈ s.overflowTeardown, ∃ a ∈ s.attempts, a.frame.conn = c ∧ a.accepted = false

theorem noted_exec (h : Noted s) (c : Call) : Noted (exec pc accepts s c) := by
  apply grows_exec pc accepts (P := fun as overflowed => ∀ c ∈ overflowed,
    ∃ a ∈ as, a.frame.conn = c ∧ a.accepted = false)
  · intro as overflowed f has c hc
    have hold (hc : c ∈ overflowed) : ∃ a ∈ as ++ [⟨f, accepts as.length⟩],
        a.frame.conn = c ∧ a.accepted = false := by
      obtain ⟨a, ha, hrefused⟩ := has c hc
      exact ⟨a, List.mem_append_left _ ha, hrefused⟩
    cases hanswer : accepts as.length with
    | true =>
      rw [hanswer, if_pos rfl] at hc
      exact hanswer ▸ hold hc
    | false =>
      rw [hanswer, if_neg Bool.false_ne_true] at hc
      obtain hc | hc := List.mem_append.mp hc
      · exact hanswer ▸ hold hc
      · exact ⟨⟨f, false⟩, by simp, (List.mem_singleton.mp hc).symm, rfl⟩
  · exact fun _ _ _ _ c hc => nomatch hc
  · exact h

theorem noted_execs (h : Noted s) (cs : List Call) : Noted (execs pc accepts cs s) := by
  induction cs generalizing s with
  | nil => exact h
  | cons c cs ih => exact ih (noted_exec h c)

/-- Between iterations the drain does the rest: who refused a frame has lost its writer
by the end of the iteration, unless it was a notice of the drain itself. -/
theorem settled_step (h : Marked accepts known [] s) (hnoted : Noted s) {input : Input}
    (hc : (Call.event input.order input.event).Allowed known) :
    Settled (actorStep pc accepts s input).attempts ↔
      Settled s.attempts ∧ KeepsRefusing pc accepts s input := by
  rw [(attempts_actorStep h hc).2, settled_append, KeepsRefusing]
  refine and_congr_right fun _ => and_congr_right fun _ => ⟨fun hcross b hb hmarked => ?_, ?_⟩
  · obtain ⟨a, ha, hconn, hrefused⟩ := hnoted _ hmarked
    exact hcross a ha b hb hconn hrefused
  · intro hmarked a ha b hb hconn hrefused
    have hknown : b.frame.conn ∈ known := hconn ▸ h.attempted a ha
    have hwriter := writer_of_attempt h hc hb hknown
    obtain hdue | hnone := h.marked a ha hrefused (hconn ▸ hwriter)
    · exact hmarked b hb (hconn ▸ hdue)
    · cases hnone

theorem settled_run {inputs : List Input} (h : Marked accepts known [] s) (hnoted : Noted s)
    (horderly : Orderly known inputs) :
    Settled (inputs.foldl (actorStep pc accepts) s).attempts ↔
      Settled s.attempts ∧ ∀ p ∈ iterations pc accepts s inputs, KeepsRefusing pc accepts p.1 p.2 := by
  induction inputs generalizing known s with
  | nil => exact ⟨fun hs => ⟨hs, fun p hp => nomatch hp⟩, fun hs => hs.1⟩
  | cons input inputs ih =>
    obtain ⟨hc, hrest⟩ := orderly_cons.mp horderly
    have hnoted' : Noted (actorStep pc accepts s input) :=
      actorStep_eq pc accepts s input ▸ noted_execs hnoted _
    rw [List.foldl_cons, ih (marked_step pc h input hc).1 hnoted' hrest, settled_step h hnoted hc,
      iterations, List.forall_mem_cons, and_assoc]

end Runs

def attemptedFor (attempts : List Attempt) (c : ConnectionId) : List Outbound :=
  (attempts.filter (fun a => a.frame.conn = c)).map Attempt.frame

def acceptedFor (attempts : List Attempt) (c : ConnectionId) : List Outbound :=
  (attempts.filter (fun a => a.frame.conn = c ∧ a.accepted = true)).map Attempt.frame

theorem acceptedFor_prefix {attempts : List Attempt} (h : Settled attempts) (c : ConnectionId) :
    acceptedFor attempts c <+: attemptedFor attempts c := by
  induction attempts with
  | nil => exact List.nil_prefix
  | cons a as ih =>
    obtain ⟨hlater, hrest⟩ := List.pairwise_cons.mp h
    by_cases hconn : a.frame.conn = c
    · cases haccepted : a.accepted with
      | true =>
        simp only [acceptedFor, attemptedFor, hconn, haccepted, List.filter_cons_of_pos,
          decide_true, and_self, List.map_cons, List.cons_prefix_cons, true_and]
        exact ih hrest
      | false =>
        have hnone : acceptedFor (a :: as) c = [] := by
          apply List.map_eq_nil_iff.mpr
          apply List.filter_eq_nil_iff.mpr
          intro b hb
          obtain rfl | hb := List.mem_cons.mp hb
          · simp [haccepted]
          · have hrefused : b.frame.conn = c → b.accepted = false :=
              fun he => hlater b hb (hconn.trans he.symm) haccepted
            simpa using hrefused
        rw [hnone]
        exact List.nil_prefix
    · simp only [acceptedFor, attemptedFor, hconn, List.filter_cons_of_neg, false_and, decide_false,
        Bool.false_eq_true, not_false_eq_true]
      exact ih hrest

/-- Overflow cuts a stream off and leaves no hole in it, exactly if in each iteration a
connection that refused a frame refuses the others as well: the teardown at the end of
the iteration sees to the rest. -/
theorem accepted_frames_prefix (inputs : List Input) (horderly : Orderly [] inputs) :
    let attempts := (actorLoop pc accepts inputs).attempts
    let kept := ∀ p ∈ iterations pc accepts Server.new inputs, KeepsRefusing pc accepts p.1 p.2
    (kept ↔ ∀ before a after, attempts = before ++ a :: after → a.accepted = false →
      ∀ b ∈ after, b.frame.conn = a.frame.conn → b.accepted = false) ∧
    (kept → ∀ c, acceptedFor attempts c <+: attemptedFor attempts c) := by
  intro attempts kept
  have hsettled : Settled attempts ↔ kept := by
    have hrun : Settled attempts ↔ Settled [] ∧ kept :=
      settled_run (marked_new accepts) (fun c hc => nomatch hc) horderly
    exact hrun.trans ⟨fun h => h.2, fun h => ⟨List.Pairwise.nil, h⟩⟩
  exact ⟨hsettled.symm.trans settled_iff, fun h => acceptedFor_prefix (hsettled.mpr h)⟩

/-- The consumer of the handshake refuses a frame and is torn down. -/
def refusal : List Input := handshake ++ [⟨.frame ⟨1⟩ 1 [7], .stored⟩, ⟨.frame ⟨1⟩ 1 [8], .stored⟩]

theorem accepted_frames_prefix_refusal :
    Orderly [] refusal ∧
    acceptedFor (actorLoop postcard (fun i => i ≠ 2) refusal).attempts ⟨2⟩ <+:
      attemptedFor (actorLoop postcard (fun i => i ≠ 2) refusal).attempts ⟨2⟩ ∧
    (actorLoop postcard (fun i => i ≠ 2) refusal).attempts.map Attempt.accepted =
      [true, true, false, true] := by
  have h : Orderly [] refusal := by simp [refusal, handshake, Orderly]
  have hkept : ∀ p ∈ iterations postcard (fun i => i ≠ 2) Server.new refusal,
      KeepsRefusing postcard (fun i => i ≠ 2) p.1 p.2 := by decide +kernel
  have hframes := accepted_frames_prefix postcard (fun i => i ≠ 2) refusal h
  exact ⟨h, hframes.2 hkept ⟨2⟩, by decide +kernel⟩

def watched : List Input :=
  handshake ++ [⟨.frame ⟨2⟩ 0 (controlMessage.encode (.watch (Address.local 1))), .stored⟩]

def farewell : List Input := watched ++ flood ++ [⟨.disconnected ⟨1⟩, .stored⟩]

def exited : Outbound := ⟨⟨2⟩, 0, controlMessage.encode (.paneExited (Address.local 1) .disconnected)⟩

def lost : Outbound := ⟨⟨2⟩, 0, controlMessage.encode (.serviceTeardown 1 .connectionLost)⟩

theorem orderly_watched (rest : List Input) (h : Orderly [⟨2⟩, ⟨1⟩] rest) :
    Orderly [] (watched ++ (flood ++ rest)) := by
  have hflood := orderly_flood 1 [7] .stored 4095 (by decide : (⟨1⟩ : ConnectionId) ∈ [⟨2⟩, ⟨1⟩]) h
  exact ⟨by decide, by decide, by decide, by decide, hflood⟩

theorem attempts_farewell :
    (actorLoop postcard fullAt farewell).attempts =
      (flooded (actorLoop postcard fullAt watched)).attempts ++ [⟨exited, false⟩, ⟨lost, true⟩] := by
  have horderly := orderly_watched [] trivial
  rw [List.append_nil] at horderly
  have hlegal := legal_runCalls postcard fullAt Server.new horderly
  have hsound := sound_execs postcard fullAt sound_new hlegal
  have hanswered := answered_actorLoop postcard fullAt (watched ++ flood)
  rw [← actorLoop_eq] at hsound
  rw [farewell, actorLoop, List.foldl_append, List.foldl_cons, List.foldl_nil, ← actorLoop]
  have htwo : (actorLoop postcard fullAt watched).attempts.length = 2 := by decide +kernel
  rw [actorLoop_flood postcard htwo (by decide +kernel) (by decide +kernel) (by decide +kernel)]
    at hsound hanswered ⊢
  have hlength := length_flooded htwo
  have hoffers : offers postcard (flooded (actorLoop postcard fullAt watched))
      (.event .stored (.disconnected ⟨1⟩)) = [exited, lost] := by decide +kernel
  have hcalls := stepCalls_of_refusals postcard fullAt hsound.symmetric hanswered
    (by decide +kernel) ⟨.disconnected ⟨1⟩, .stored⟩ (by rw [hlength, hoffers])
  -- when the refusal is acted on, there is nobody left to tell
  have hall : offersOf postcard fullAt (flooded (actorLoop postcard fullAt watched))
      [.event .stored (.disconnected ⟨1⟩), .drain, .tearDown .stored ⟨2⟩] = [exited, lost] := by
    decide +kernel
  rw [actorStep_eq, hcalls]
  refine (attempts_of_calls postcard fullAt hsound ?_ hanswered).trans ?_
  · exact ⟨hsound.within.writers ⟨1⟩ (by decide +kernel), trivial, trivial, trivial⟩
  · exact congrArg _ (congrArg₂ (answered fullAt) hlength hall)

theorem acceptedFor_append {attempts : List Attempt} (h : ∀ a ∈ attempts, a.accepted = true)
    (rest : List Attempt) (c : ConnectionId) :
    acceptedFor (attempts ++ rest) c = attemptedFor attempts c ++ acceptedFor rest c := by
  have hall : acceptedFor attempts c = attemptedFor attempts c := by
    rw [acceptedFor, attemptedFor]
    congr 1
    apply List.filter_congr
    intro a ha
    simp [h a ha]
  rw [← hall, acceptedFor, acceptedFor, acceptedFor, List.filter_append, List.map_append]

theorem attemptedFor_append (attempts rest : List Attempt) (c : ConnectionId) :
    attemptedFor (attempts ++ rest) c = attemptedFor attempts c ++ attemptedFor rest c := by
  rw [attemptedFor, List.filter_append, List.map_append, attemptedFor, attemptedFor]

theorem attempts_watched : (actorLoop postcard fullAt watched).attempts = greetings := by
  decide +kernel

/-- The notice of death is refused, the writer thread takes a frame, and the
notice of the lost service, which follows in the same event, is accepted. -/
theorem refused_then_accepted :
    Orderly [] farewell ∧ Bounded (actorLoop postcard fullAt farewell).attempts ∧
    (∃ before, (actorLoop postcard fullAt farewell).attempts =
      before ++ [⟨exited, false⟩, ⟨lost, true⟩]) ∧
    ¬ acceptedFor (actorLoop postcard fullAt farewell).attempts ⟨2⟩ <+:
      attemptedFor (actorLoop postcard fullAt farewell).attempts ⟨2⟩ := by
  have horderly := orderly_watched [⟨.disconnected ⟨1⟩, .stored⟩] ⟨by decide, trivial⟩
  have hbounded := bounded_flood attempts_watched
    [.offer ⟨exited, false⟩, .take ⟨2⟩, .offer ⟨lost, true⟩] ⟨by decide, by decide, by decide, trivial⟩
  refine ⟨by rwa [farewell, List.append_assoc], attempts_farewell ▸ hbounded,
    ⟨_, attempts_farewell⟩, ?_⟩
  have haccepted : ∀ a ∈ (flooded (actorLoop postcard fullAt watched)).attempts, a.accepted = true := by
    rw [flooded, plus, attempts_watched]
    intro a ha
    obtain ha | ha := List.mem_append.mp ha
    · exact (by decide : ∀ a ∈ greetings, a.accepted = true) a ha
    · rw [List.eq_of_mem_replicate ha]
  rw [attempts_farewell, acceptedFor_append haccepted, attemptedFor_append,
    List.prefix_append_right_inj]
  decide

end Pane.Overflow
