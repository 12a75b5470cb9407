import Mathlib.Data.List.Induction
import Pane.ConnectionSource

namespace Pane.WrittenBytes

open Pane.Messages Pane.Framing Pane.ConnectionSource

def encoding (frame : WriteMessage) : Bytes := frameBytes frame.1 frame.2

def encodings (frames : List WriteMessage) : Bytes := frames.flatMap encoding

@[simp] theorem encodings_append (frames more : List WriteMessage) :
    encodings (frames ++ more) = encodings frames ++ encodings more :=
  List.flatMap_append

@[simp] theorem encodings_singleton (frame : WriteMessage) : encodings [frame] = encoding frame :=
  List.flatMap_singleton encoding frame

theorem encoding_ne_nil (frame : WriteMessage) : encoding frame ≠ [] := by
  intro h
  have hlength := congrArg List.length h
  simp [encoding, frameBytes] at hlength

def pending (w : FrameWriter) : Bytes := w.buf.drop w.flushPos

def accepted (w : FrameWriter) : List SinkAnswer → Bytes
  | [] => []
  | answer :: answers =>
    if w.flushPos < w.buf.length then match answer with
      | .wrote 0 => []
      | .wrote (n + 1) => (pending w).take (n + 1) ++
        accepted { w with flushPos := w.flushPos + min (n + 1) w.pendingBytes } answers
      | .wouldBlock => []
      | .interrupted => accepted w answers
      | .failed _ => []
    else []

def Placed (w : FrameWriter) : Prop := w.flushPos ≤ w.buf.length

section Writer

variable {w : FrameWriter}

theorem length_pending (w : FrameWriter) : (pending w).length = w.pendingBytes := List.length_drop

theorem placed_new : Placed FrameWriter.new := Nat.le_refl 0

theorem pending_enqueue (hw : Placed w) (frame : WriteMessage) :
    pending (w.enqueue frame.1 frame.2) = pending w ++ encoding frame :=
  List.drop_append_of_le_length hw

theorem placed_enqueue (hw : Placed w) (frame : WriteMessage) : Placed (w.enqueue frame.1 frame.2) := by
  show w.flushPos ≤ (w.buf ++ frameBytes frame.1 frame.2).length
  rw [List.length_append]
  exact Nat.le_add_right_of_le hw

theorem pendingBytes_enqueue (hw : Placed w) (frame : WriteMessage) :
    (w.enqueue frame.1 frame.2).pendingBytes = w.pendingBytes + (encoding frame).length := by
  rw [← length_pending, pending_enqueue hw, List.length_append, length_pending]

theorem pending_eq_nil (hw : Placed w) : pending w = [] ↔ w.flushPos = w.buf.length := by
  rw [pending, List.drop_eq_nil_iff]
  exact ⟨fun h => Nat.le_antisymm hw h, fun h => Nat.le_of_eq h.symm⟩

theorem take_pending (n : Nat) :
    (pending w).take n ++ pending { w with flushPos := w.flushPos + min n w.pendingBytes } =
      pending w := by
  have hdrop : pending { w with flushPos := w.flushPos + min n w.pendingBytes } =
      (pending w).drop (min n w.pendingBytes) := List.drop_drop.symm
  have htake : (pending w).take n = (pending w).take (min n w.pendingBytes) := by
    rw [← length_pending, List.take_eq_take_min]
  rw [hdrop, htake, List.take_append_drop]

theorem placed_take (hlt : w.flushPos < w.buf.length) (n : Nat) :
    Placed { w with flushPos := w.flushPos + min n w.pendingBytes } := by
  show w.flushPos + min n (w.buf.length - w.flushPos) ≤ w.buf.length
  omega

/-- One call of `try_flush`: no byte is lost, and it reports whether some are left. -/
structure Flushes (w : FrameWriter) (answers : List SinkAnswer) : Prop where
  conserved : accepted w answers ++ pending (w.tryFlush answers).2 = pending w
  placed : Placed (w.tryFlush answers).2
  done : (w.tryFlush answers).1 = .ok true ↔ pending (w.tryFlush answers).2 = []

theorem flushes_done (hw : Placed w) (h : ¬ w.flushPos < w.buf.length) (answers : List SinkAnswer) :
    Flushes w answers := by
  have hnil : pending w = [] := (pending_eq_nil hw).mpr (Nat.le_antisymm hw (Nat.le_of_not_lt h))
  have hflush : w.tryFlush answers = (.ok true, FrameWriter.new) := by
    cases answers <;> exact if_neg h
  have haccepted : accepted w answers = [] := by
    cases answers with
    | nil => rfl
    | cons answer answers => exact if_neg h
  constructor
  · rw [haccepted, hflush, hnil]
    rfl
  · rw [hflush]
    exact placed_new
  · rw [hflush]
    exact ⟨fun _ => rfl, fun _ => rfl⟩

theorem flushes_stopped (h : w.flushPos < w.buf.length) {answers : List SinkAnswer}
    {result : Except IoError Bool} (hflush : w.tryFlush answers = (result, w))
    (haccepted : accepted w answers = []) (hresult : result ≠ .ok true) : Flushes w answers := by
  constructor
  · rw [haccepted, hflush]
    rfl
  · rw [hflush]
    exact Nat.le_of_lt h
  · rw [hflush]
    refine ⟨fun he => absurd he hresult, fun hnil => ?_⟩
    have hend := (pending_eq_nil (Nat.le_of_lt h)).mp hnil
    omega

theorem flushes (hw : Placed w) (answers : List SinkAnswer) : Flushes w answers := by
  induction answers generalizing w with
  | nil =>
    by_cases hlt : w.flushPos < w.buf.length
    · refine flushes_stopped hlt (if_pos hlt) rfl ?_
      simp
    · exact flushes_done hw hlt []
  | cons answer answers ih =>
    by_cases hlt : w.flushPos < w.buf.length
    · cases answer with
      | wouldBlock =>
        refine flushes_stopped hlt (if_pos hlt) (if_pos hlt) ?_
        simp
      | failed e =>
        refine flushes_stopped hlt (if_pos hlt) (if_pos hlt) ?_
        simp
      | interrupted =>
        have hflush : w.tryFlush (.interrupted :: answers) = w.tryFlush answers := if_pos hlt
        have haccepted : accepted w (.interrupted :: answers) = accepted w answers := if_pos hlt
        obtain ⟨hconserved, hplaced, hdone⟩ := ih hw
        exact ⟨by rw [haccepted, hflush, hconserved], by rwa [hflush], by rwa [hflush]⟩
      | wrote n =>
        cases n with
        | zero =>
          refine flushes_stopped hlt (if_pos hlt) (if_pos hlt) ?_
          simp
        | succ n =>
          let w' : FrameWriter := { w with flushPos := w.flushPos + min (n + 1) w.pendingBytes }
          have hflush : w.tryFlush (.wrote (n + 1) :: answers) = w'.tryFlush answers := if_pos hlt
          have haccepted : accepted w (.wrote (n + 1) :: answers) =
              (pending w).take (n + 1) ++ accepted w' answers := if_pos hlt
          obtain ⟨hconserved, hplaced, hdone⟩ := ih (placed_take hlt (n + 1))
          refine ⟨?_, by rwa [hflush], by rwa [hflush]⟩
          rw [haccepted, hflush, List.append_assoc, hconserved]
          exact take_pending (n + 1)
    · exact flushes_done hw hlt _

end Writer

/-- A call on a `FrameWriter`, with the answers of the sink. -/
inductive WriterCall
  | enqueue (frame : WriteMessage)
  | tryFlush (answers : List SinkAnswer)

/-- A writer with all that was enqueued and all that its sink has accepted. -/
structure Writing where
  writer : FrameWriter
  enqueued : List WriteMessage
  sunk : Bytes

namespace Writing

def new : Writing := ⟨FrameWriter.new, [], []⟩

def call (x : Writing) : WriterCall → Writing
  | .enqueue frame =>
    { x with writer := x.writer.enqueue frame.1 frame.2, enqueued := x.enqueued ++ [frame] }
  | .tryFlush answers =>
    { x with
      writer := (x.writer.tryFlush answers).2
      sunk := x.sunk ++ accepted x.writer answers }

def calls (calls : List WriterCall) : Writing := calls.foldl call new

structure Conserved (x : Writing) : Prop where
  placed : Placed x.writer
  bytes : x.sunk ++ pending x.writer = encodings x.enqueued

theorem conserved_call {x : Writing} (h : Conserved x) (c : WriterCall) : Conserved (x.call c) := by
  cases c with
  | enqueue frame =>
    refine ⟨placed_enqueue h.placed frame, ?_⟩
    show x.sunk ++ pending (x.writer.enqueue frame.1 frame.2) = encodings (x.enqueued ++ [frame])
    rw [pending_enqueue h.placed, ← List.append_assoc, h.bytes, encodings_append, encodings_singleton]
  | tryFlush answers =>
    have hflush := flushes h.placed answers
    refine ⟨hflush.placed, ?_⟩
    show x.sunk ++ accepted x.writer answers ++ pending (x.writer.tryFlush answers).2 =
      encodings x.enqueued
    rw [List.append_assoc, hflush.conserved, h.bytes]

theorem conserved_calls (cs : List WriterCall) : Conserved (calls cs) := by
  induction cs using List.reverseRecOn with
  | nil => exact ⟨placed_new, rfl⟩
  | append_singleton cs c ih =>
    have hcalls : calls (cs ++ [c]) = (calls cs).call c := List.foldl_append
    rw [hcalls]
    exact conserved_call ih c

end Writing

/-- After any calls, the sink has accepted the encodings of the frames up to what is
pending, the position is in the buffer, and another `try_flush` reports success
exactly if it leaves nothing pending. -/
theorem writer_conserves_bytes (calls : List WriterCall) :
    let x := Writing.calls calls
    x.sunk ++ x.writer.buf.drop x.writer.flushPos =
        x.enqueued.flatMap (fun frame => frameBytes frame.1 frame.2) ∧
      x.writer.flushPos ≤ x.writer.buf.length ∧
      ∀ answers, (x.writer.tryFlush answers).1 = .ok true ↔
        let w := (x.writer.tryFlush answers).2
        w.buf.drop w.flushPos = [] := by
  have h := Writing.conserved_calls calls
  exact ⟨h.bytes, h.placed, fun answers => (flushes h.placed answers).done⟩

/-- A sink that takes seven bytes, is interrupted, takes one more and blocks. -/
example :
    let x := Writing.calls [.enqueue (1, [7]), .enqueue (2, [8]),
      .tryFlush [.wrote 7, .interrupted, .wrote 1, .wouldBlock]]
    x.sunk = [3, 0, 0, 0, 1, 0, 7, 3] ∧ pending x.writer = [0, 0, 0, 2, 0, 8] := by decide

end Pane.WrittenBytes
