import Pane.DecoderAgreement

namespace Pane.StreamRoundTrip

open Pane.Messages Pane.Serialization Pane.Framing Pane.NonBlockingFraming Pane.DecoderAgreement

/-- The functions of the source that put a message on the wire. -/
inductive Encoder
  | writeFrame
  | encodeFrame
  | enqueue

def write (out : Bytes) : Encoder × Frame → Option Bytes
  | (_, .abort) => some (FrameCodec.writeAbort out)
  | (.writeFrame, .message service payload) => FrameCodec.writeFrame out service payload
  | (.encodeFrame, .message service payload) =>
    (FrameCodec.encodeFrame service payload).map (fun frame => out ++ frame)
  | (.enqueue, .message service payload) =>
    some (FrameWriter.enqueue ⟨out, 0⟩ service payload).buf

def writeAll (items : List (Encoder × Frame)) : Option Bytes := items.foldlM write []

def Writable (max : UInt32) : Frame → Prop
  | .message service payload => service ≠ 0xFFFF ∧ 2 + payload.length ≤ max.toNat
  | .abort => True

def encode : Frame → Bytes
  | .message service payload => frameBytes service payload
  | .abort => frameBytes 0xFFFF []

variable {max : UInt32}

theorem write_eq {frame : Frame} (h : Writable max frame) (how : Encoder) (out : Bytes) :
    write out (how, frame) = some (out ++ encode frame) := by
  cases frame with
  | abort => cases how <;> rfl
  | message service payload =>
    cases how with
    | writeFrame => exact if_neg h.1
    | encodeFrame => rw [write, FrameCodec.encodeFrame, if_neg h.1, Option.map_some, encode]
    | enqueue => rfl

theorem foldlM_write {items : List (Encoder × Frame)} (h : ∀ i ∈ items, Writable max i.2)
    (out : Bytes) :
    items.foldlM write out = some (out ++ (items.map Prod.snd).flatMap encode) := by
  induction items generalizing out with
  | nil => rw [List.foldlM_nil, List.map_nil, List.flatMap_nil, List.append_nil]; rfl
  | cons i items ih =>
    have hi := write_eq (h i List.mem_cons_self) i.1 out
    have hrest := ih (fun j hj => h j (List.mem_cons_of_mem i hj)) (out ++ encode i.2)
    rw [List.foldlM_cons, hi, Option.bind_eq_bind, Option.bind_some, hrest, List.map_cons,
      List.flatMap_cons, List.append_assoc]

theorem length_encode (frame : Frame) : 0 < (encode frame).length := by
  cases frame with
  | abort => decide
  | message service payload =>
    rw [encode, frameBytes, List.length_append, length_toLeBytes]
    omega

theorem length_flatMap_encode (frames : List Frame) :
    frames.length ≤ (frames.flatMap encode).length := by
  induction frames with
  | nil => exact Nat.le_refl _
  | cons frame frames ih =>
    have hframe := length_encode frame
    rw [List.flatMap_cons, List.length_append, List.length_cons]
    omega

theorem readFrame_encode (hmax : 2 ≤ max) {frame : Frame} (h : Writable max frame) (rest : Bytes) :
    (FrameCodec.newPermissive max).readFrame (encode frame ++ rest) =
      (.ok frame, .newPermissive max, rest) := by
  have hinner : (FrameCodec.newPermissive max).readFrameInner (encode frame ++ rest) =
      (.ok frame, rest) := by
    cases frame with
    | abort =>
      have hsize : 2 + ([] : Bytes).length ≤ (FrameCodec.newPermissive max).maxMessageSize.toNat :=
        UInt32.le_iff_toNat_le.mp hmax
      rw [encode, readFrameInner_frameBytes hsize, acceptBody_encoded, if_pos rfl]
    | message service payload =>
      rw [encode, readFrameInner_frameBytes h.2, acceptBody_encoded, if_neg h.1]
      rfl
  rw [FrameCodec.readFrame, hinner]
  rfl

theorem readAll_encode (hmax : 2 ≤ max) {frames : List Frame} (h : ∀ f ∈ frames, Writable max f)
    {fuel : Nat} (hfuel : frames.length < fuel) :
    FrameCodec.readAll fuel (.newPermissive max) (frames.flatMap encode) =
      (frames, some (.endOfStream, [])) := by
  induction frames generalizing fuel with
  | nil =>
    cases fuel with
    | zero => cases hfuel
    | succ fuel => rfl
  | cons frame frames ih =>
    cases fuel with
    | zero => cases hfuel
    | succ fuel =>
      have hframe := readFrame_encode hmax (h frame List.mem_cons_self) (frames.flatMap encode)
      have hrest := ih (fun f hf => h f (List.mem_cons_of_mem frame hf)) (Nat.lt_of_succ_lt_succ hfuel)
      rw [List.flatMap_cons, FrameCodec.readAll, hframe]
      simp only [hrest]

theorem writable_map {items : List (Encoder × Frame)} (h : ∀ i ∈ items, Writable max i.2) :
    ∀ f ∈ items.map Prod.snd, Writable max f := by
  intro f hf
  obtain ⟨i, hi, rfl⟩ := List.mem_map.mp hf
  exact h i hi

/-- Whatever encoders write a list of frames, both decoders read exactly that list
and stop at the end of the stream, between two frames. No other list of frames
gives the same bytes. -/
theorem stream_round_trip (max : UInt32) (hmax : 2 ≤ max) (items : List (Encoder × Frame))
    (hitems : ∀ i ∈ items, Writable max i.2) :
    ∃ bytes, writeAll items = some bytes ∧
      (∀ fuel, bytes.length < fuel →
        FrameCodec.readAll fuel (.newPermissive max) bytes =
          (items.map Prod.snd, some (.endOfStream, []))) ∧
      (∀ ds calls, Healthy ds → bytesOf ds = bytes → size ds < calls →
        (FrameReader.new max true).pollAll calls ds =
          (items.map Prod.snd, some FrameReader.closed)) ∧
      ∀ items', (∀ i ∈ items', Writable max i.2) → writeAll items' = some bytes →
        items'.map Prod.snd = items.map Prod.snd := by
  have hread : ∀ {items : List (Encoder × Frame)}, (∀ i ∈ items, Writable max i.2) →
      ∀ {fuel}, ((items.map Prod.snd).flatMap encode).length < fuel →
        FrameCodec.readAll fuel (.newPermissive max) ((items.map Prod.snd).flatMap encode) =
          (items.map Prod.snd, some (.endOfStream, [])) := by
    intro items h fuel hfuel
    exact readAll_encode hmax (writable_map h)
      (Nat.lt_of_le_of_lt (length_flatMap_encode _) hfuel)
  refine ⟨(items.map Prod.snd).flatMap encode, foldlM_write hitems [], fun fuel => hread hitems,
    fun ds calls hds hbytes hcalls => ?_, fun items' hitems' hwrite => ?_⟩
  · obtain ⟨frames, e, e', left, hpoll, hall, -, hclosed⟩ :=
      pollAll_readAll rfl (follows_new max true hds) hcalls (Nat.lt_succ_self _)
    rw [if_pos rfl, hbytes, hread hitems (Nat.lt_succ_self _)] at hall
    obtain ⟨hframes, hend⟩ := Prod.mk.inj hall
    obtain ⟨-, hleft⟩ := Prod.mk.inj (Option.some.inj hend)
    rw [hpoll, ← hframes, hclosed hleft.symm]
  · have hsame := (foldlM_write hitems' []).symm.trans hwrite
    rw [List.nil_append, Option.some.injEq] at hsame
    have hlist := hread hitems' (Nat.lt_succ_self _)
    rw [hsame, hread hitems (Nat.lt_succ_self _)] at hlist
    exact (Prod.mk.inj hlist).1.symm

theorem stream_round_trip_of_three :
    ∃ bytes, writeAll [(.enqueue, .message 3 [7]), (.writeFrame, .abort), (.encodeFrame, .message 0 [])] =
        some bytes ∧
      (FrameReader.new 3 true).pollAll 21 [.chunk 3 [0, 0, 0, 3, 0, 7, 2], .wouldBlock,
        .chunk 0 [0, 0, 0xFF, 0xFF, 2, 0, 0, 0, 0, 0]] =
        ([.message 3 [7], .abort, .message 0 []], some FrameReader.closed) := by
  obtain ⟨bytes, hwrite, -, hpoll, -⟩ := stream_round_trip 3 (by decide)
    [(.enqueue, .message 3 [7]), (.writeFrame, .abort), (.encodeFrame, .message 0 [])]
    (by simp [Writable])
  refine ⟨bytes, hwrite, hpoll _ _ (by simp [Healthy]) ?_ (by decide)⟩
  exact Option.some.inj ((show _ = some _ by decide +kernel).trans hwrite)

end Pane.StreamRoundTrip
