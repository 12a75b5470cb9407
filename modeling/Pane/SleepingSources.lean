import Pane.PostcardFormat
import Pane.WritePath

namespace Pane.SleepingSources

open Pane.Messages Pane.Framing Pane.NonBlockingFraming Pane.ConnectionSource Pane.WrittenBytes
open Pane.SourceRuns Pane.WritePath Pane.PostcardFormat

variable {pc : Postcard}

def Idle (source : Source) : Prop := pending source.writer = [] ∧ source.writeRx = []

theorem pending_eq_nil_iff {w : FrameWriter} : pending w = [] ↔ w.isEmpty = true := by
  rw [isEmpty_iff_pendingBytes, ← length_pending, List.length_eq_zero_iff]

theorem isEmpty_peek {source : Source} (hw : Placed source.writer) :
    (Registered.peek source).writer.isEmpty = true ↔ Idle source := by
  rw [Idle, pending_eq_nil_iff]
  obtain ⟨hsame, hpeek⟩ | ⟨msg, msgs, hempty, hchannel, hpeek⟩ := Registered.peek_cases source
  · rw [hpeek]
    obtain hfull | hchannel := hsame
    · simp [hfull]
    · simp [hchannel]
  · rw [hpeek, ← pending_eq_nil_iff, pending_enqueue hw, List.append_eq_nil_iff, hchannel]
    simp [encoding_ne_nil]

theorem writeInterest_peek (source : Source) :
    (Registered.peek source).writeInterest = source.writeInterest := by
  obtain ⟨-, hpeek⟩ | ⟨msg, msgs, -, -, hpeek⟩ := Registered.peek_cases source
  · rw [hpeek]
  · rw [hpeek]

def Unpolled (x : Session) : Prop := x.registeredToken = none → x.source.writeInterest = false

theorem unpolled_run (maxMessageSize : UInt32) (socket : List Delivery)
    (happenings : List Happening) : Unpolled (Session.run pc maxMessageSize socket happenings) := by
  refine Session.run_induction (P := Unpolled) (fun _ => rfl) ?_ happenings
  intro x happening h hremoved
  rw [Session.step_live hremoved]
  cases happening with
  | send msg => exact h
  | enqueue msg => exact h
  | processEvents token readable writable sink => exact nofun
  | beforeSleep =>
    intro hnone
    show (Registered.peek x.source).writeInterest = false
    rw [writeInterest_peek]
    exact h hnone

/-- What a source that lets the event loop sleep should guarantee: nothing waits, or
the loop is woken up when the socket is writable. -/
def SleepsSafely (x : Registered) : Prop :=
  x.beforeSleep.1 = none →
    (pending x.beforeSleep.2.source.writer = [] ∧ x.source.writeRx = []) ∨
      x.beforeSleep.2.source.writeInterest = true

/-- A source sleeps safely exactly if it was polled before or nothing waits. -/
theorem sleeps_safely_iff (pc : Postcard) (maxMessageSize : UInt32) (socket : List Delivery)
    (happenings : List Happening) :
    let x := Session.run pc maxMessageSize socket happenings
    SleepsSafely x.toRegistered ↔
      x.registeredToken.isSome = true ∨ (pending x.source.writer = [] ∧ x.source.writeRx = []) := by
  intro x
  obtain ⟨frames, hcarried⟩ : ∃ frames, Carried x frames :=
    carried_run maxMessageSize socket happenings
  have hunpolled : Unpolled x := unpolled_run maxMessageSize socket happenings
  have hpeek := isEmpty_peek hcarried.placed
  have hbefore : x.toRegistered.beforeSleep =
      (if (Registered.peek x.source).writer.isEmpty then none else x.registeredToken,
        { x.toRegistered with source := Registered.peek x.source }) := rfl
  rw [SleepsSafely, hbefore]
  cases htoken : x.registeredToken with
  | some token =>
    refine ⟨fun _ => .inl rfl, fun _ hnone => .inl ?_⟩
    have hempty : (Registered.peek x.source).writer.isEmpty = true := by
      by_contra hne
      rw [if_neg hne] at hnone
      cases hnone
    exact ⟨pending_eq_nil_iff.mpr hempty, (hpeek.mp hempty).2⟩
  | none =>
    have hinterest : (Registered.peek x.source).writeInterest = false := by
      rw [writeInterest_peek]
      exact hunpolled htoken
    constructor
    · intro h
      obtain ⟨hpending, -⟩ | hwrite := h (ite_self none)
      · exact .inr (hpeek.mp (pending_eq_nil_iff.mp hpending))
      · rw [hinterest] at hwrite
        cases hwrite
    · rintro (hsome | hidle) -
      · cases hsome
      · exact .inl ⟨pending_eq_nil_iff.mpr (hpeek.mpr hidle), hidle.2⟩

/-- A frame that another thread sends before the first event: it gets into the buffer,
no event is generated, and nothing wakes up the loop. -/
theorem sleeps_on_first_frame :
    let x := Session.run postcard 1024 [] [.send (1, [7])]
    x.removed = false ∧ x.toRegistered.beforeSleep.1 = none ∧
      pending x.toRegistered.beforeSleep.2.source.writer = [3, 0, 0, 0, 1, 0, 7] ∧
      x.toRegistered.beforeSleep.2.source.writeInterest = false ∧
      ¬ SleepsSafely x.toRegistered := by
  refine ⟨rfl, rfl, rfl, rfl, fun h => ?_⟩
  obtain ⟨hpending, -⟩ | hinterest := h rfl
  · cases hpending
  · cases hinterest

end Pane.SleepingSources
