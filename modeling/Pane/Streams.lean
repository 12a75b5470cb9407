import Pane.ConnectionSource
import Pane.Links

namespace Pane.Streams

open Pane.Messages Pane.Serialization Pane.Framing Pane.ConnectionSource Pane.Links

/-- A byte stream: what its writer has still to write of a frame, and the bytes
that are under way. -/
structure Stream where
  unsent : Bytes
  transit : Bytes
deriving DecidableEq

/-- The stream between two threads of a connection with this limit. A writer takes
a frame when it is done with the one before, and never again once it has panicked.
A reader waits for the bytes that a frame still lacks. -/
def byteStream (limit : UInt32) : Link WriteMessage Stream where
  empty := ⟨[], []⟩
  send frame q :=
    if q.unsent = [] then
      (FrameCodec.writeFrame [] frame.1 frame.2).map fun bytes => { q with unsent := bytes }
    else none
  drift n q := ⟨q.unsent.drop n, q.transit ++ q.unsent.take n⟩
  receive q :=
    match (FrameCodec.newPermissive limit).readFrameInner q.transit with
    | (.ok (.message service payload), rest) =>
      some (some (service, payload), { q with transit := rest })
    | (.ok .abort, rest) => some (none, { q with transit := rest })
    | (.error e, rest) =>
      if e = .endOfStream then none else some (none, { q with transit := rest })

def Fits (limit : UInt32) (frame : WriteMessage) : Prop := 2 + frame.2.length ≤ limit.toNat

instance (limit : UInt32) (frame : WriteMessage) : Decidable (Fits limit frame) :=
  inferInstanceAs (Decidable (_ ≤ _))

def Measured (frame : WriteMessage) : Prop := 2 + frame.2.length < 2 ^ 32

instance (frame : WriteMessage) : Decidable (Measured frame) :=
  inferInstanceAs (Decidable (_ < _))

theorem Fits.measured {limit : UInt32} {frame : WriteMessage} (h : Fits limit frame) :
    Measured frame :=
  Nat.lt_of_le_of_lt h limit.toNat_lt

def Underway (q : Stream) (frames : List WriteMessage) : Prop :=
  q.transit ++ q.unsent = frames.flatMap (fun f => frameBytes f.1 f.2) ∧
    ∀ f ∈ frames, f.1 ≠ 0xFFFF ∧ Measured f

variable {limit : UInt32} {q q' : Stream} {frame : WriteMessage}

theorem send_byteStream (h : (byteStream limit).send frame q = some q') :
    q.unsent = [] ∧ frame.1 ≠ 0xFFFF ∧ q' = ⟨frameBytes frame.1 frame.2, q.transit⟩ := by
  simp only [byteStream, FrameCodec.writeFrame] at h
  split at h
  · next hidle =>
    split at h
    · cases h
    · next hservice =>
      cases h
      exact ⟨hidle, hservice, rfl⟩
  · cases h

theorem receive_of_endOfStream
    (h : ((FrameCodec.newPermissive limit).readFrameInner q.transit).1 = .error .endOfStream) :
    (byteStream limit).receive q = none := by
  simp only [byteStream]
  split
  · next hread =>
    rw [hread] at h
    cases h
  · next hread =>
    rw [hread] at h
    cases h
  · next hread =>
    rw [hread] at h
    cases h
    exact if_pos rfl

theorem receive_of_oversized {declared max : UInt32}
    (h : ((FrameCodec.newPermissive limit).readFrameInner q.transit).1 =
      .error (.oversized declared max)) :
    ∃ q', (byteStream limit).receive q = some (none, q') := by
  simp only [byteStream]
  split
  · next hread =>
    rw [hread] at h
    cases h
  · next hread =>
    rw [hread] at h
    cases h
  · next hread =>
    rw [hread] at h
    cases h
    exact ⟨_, if_neg nofun⟩

theorem receive_fitting {rest : Bytes} (hservice : frame.1 ≠ 0xFFFF) (hfits : Fits limit frame)
    (hq : q.transit ++ q.unsent = frameBytes frame.1 frame.2 ++ rest) :
    (byteStream limit).receive q = none ∨ ∃ transit, transit ++ q.unsent = rest ∧
      (byteStream limit).receive q = some (some frame, { q with transit }) := by
  have hsize : 2 + frame.2.length ≤ (FrameCodec.newPermissive limit).maxMessageSize.toNat := hfits
  have hfront := List.prefix_append (frameBytes frame.1 frame.2) rest
  rw [← hq] at hfront
  by_cases hlength : q.transit.length < (frameBytes frame.1 frame.2).length
  · have hpart := List.prefix_of_prefix_length_le (List.prefix_append _ q.unsent) hfront
      (Nat.le_of_lt hlength)
    have hwait := readFrameInner_incomplete hsize hpart hlength
    exact .inl (receive_of_endOfStream hwait)
  · obtain ⟨transit, htransit⟩ := List.prefix_of_prefix_length_le hfront
      (List.prefix_append _ q.unsent) (Nat.le_of_not_lt hlength)
    refine .inr ⟨transit, ?_, ?_⟩
    · rw [← htransit, List.append_assoc, List.append_cancel_left_eq] at hq
      exact hq
    · simp only [byteStream, ← htransit]
      rw [readFrameInner_frameBytes hsize, acceptBody_encoded, if_neg hservice]
      rfl

theorem receive_oversized {rest : Bytes} (hlimit : ¬ Fits limit frame) (hmeasured : Measured frame)
    (hq : q.transit ++ q.unsent = frameBytes frame.1 frame.2 ++ rest) :
    (byteStream limit).receive q = none ∨ ∃ q', (byteStream limit).receive q = some (none, q') := by
  have hsize : (FrameCodec.newPermissive limit).maxMessageSize.toNat < 2 + frame.2.length :=
    Nat.lt_of_not_le hlimit
  by_cases hshort : q.transit.length < 4
  · left
    apply receive_of_endOfStream
    rw [FrameCodec.readFrameInner, takeBytes_short hshort]
  · right
    have hfront : toLeBytes 4 (2 + frame.2.length) <+: q.transit ++ q.unsent := by
      rw [hq, frameBytes, List.append_assoc]
      exact List.prefix_append _ _
    have hlength : (toLeBytes 4 (2 + frame.2.length)).length ≤ q.transit.length := by
      rw [length_toLeBytes]
      omega
    obtain ⟨transit, htransit⟩ := List.prefix_of_prefix_length_le hfront
      (List.prefix_append _ q.unsent) hlength
    apply receive_of_oversized
    rw [← htransit]
    exact readFrameInner_overlong hsize hmeasured

theorem receive_underway {frames : List WriteMessage} (h : Underway q frames)
    (hreceive : (byteStream limit).receive q = some (some frame, q')) :
    ∃ rest, frames = frame :: rest ∧ Underway q' rest := by
  obtain ⟨hbytes, hmeasured⟩ := h
  cases frames with
  | nil =>
    have hnone : q.transit = [] := (List.append_eq_nil_iff.mp hbytes).1
    have hwait : (byteStream limit).receive q = none := receive_of_endOfStream (by rw [hnone]; rfl)
    cases hwait.symm.trans hreceive
  | cons first rest =>
    rw [List.flatMap_cons] at hbytes
    obtain ⟨hservice, hsize⟩ := hmeasured first List.mem_cons_self
    by_cases hfits : Fits limit first
    · obtain hwait | ⟨transit, htransit, hread⟩ := receive_fitting hservice hfits hbytes
      · cases hwait.symm.trans hreceive
      · cases hread.symm.trans hreceive
        exact ⟨rest, rfl, htransit, fun f hf => hmeasured f (List.mem_cons_of_mem _ hf)⟩
    · obtain hwait | ⟨_, hend⟩ := receive_oversized hfits hsize hbytes
      · cases hwait.symm.trans hreceive
      · cases hend.symm.trans hreceive

theorem faithful_byteStream (limit : UInt32) :
    Faithful (byteStream limit) Measured Underway where
  empty := ⟨rfl, fun _ hf => nomatch hf⟩
  send := by
    rintro q q' fs f ⟨hbytes, hmeasured⟩ hf hsend
    obtain ⟨hidle, hservice, rfl⟩ := send_byteStream hsend
    rw [hidle, List.append_nil] at hbytes
    refine ⟨?_, fun g hg => ?_⟩
    · rw [hbytes, List.flatMap_append, List.flatMap_singleton]
    · obtain hg | hg := List.mem_append.mp hg
      · exact hmeasured g hg
      · rw [List.mem_singleton.mp hg]
        exact ⟨hservice, hf⟩
  drift := by
    rintro q fs n ⟨hbytes, hmeasured⟩
    refine ⟨?_, hmeasured⟩
    simp only [byteStream]
    rw [List.append_assoc, List.take_append_drop, hbytes]
  receive := receive_underway

end Pane.Streams
