import Pane.Framing

namespace Pane.LengthPrefix

open Pane.HashTable Pane.Messages Pane.Serialization Pane.Framing

variable {service : UInt16} {payload : Bytes}

def unlimited : FrameCodec := .newPermissive 0xFFFFFFFF

/-- Whatever follows the bytes that `enqueue` appends, the first frame is the one
that was written, or there is none. -/
def Honest (service : UInt16) (payload : Bytes) : Prop :=
  ∀ (w : FrameWriter) (rest : Bytes),
    let first := (unlimited.readFrame ((w.enqueue service payload).buf.drop w.buf.length ++ rest)).1
    first = .ok (.message service payload) ∨ ∃ e, first = .error e

/-- The number in the prefix is the length of the body, or it is too small for
any body. -/
def Fits (payload : Bytes) : Prop :=
  2 + payload.length < 2 ^ 32 ∨ (2 + payload.length) % 2 ^ 32 < 2

theorem drop_enqueue (w : FrameWriter) (service : UInt16) (payload : Bytes) :
    (w.enqueue service payload).buf.drop w.buf.length = frameBytes service payload :=
  List.drop_left

theorem readFrame_unlimited (bytes : Bytes) :
    (unlimited.readFrame bytes).1 = (unlimited.readFrameInner bytes).1 ∧
      (unlimited.readFrame bytes).2.2 = (unlimited.readFrameInner bytes).2 := by
  rw [FrameCodec.readFrame, if_neg (by exact Bool.false_ne_true)]
  cases unlimited.readFrameInner bytes with
  | mk result rest => cases result <;> exact ⟨rfl, rfl⟩

theorem toNat_prefix (n : Nat) : (UInt32.ofNat n).toNat = n % 2 ^ 32 := UInt32.toNat_ofNat'

theorem readFrameInner_tiny {n : Nat} (h : n % 2 ^ 32 < 2) (bytes : Bytes) :
    (unlimited.readFrameInner (toLeBytes 4 n ++ bytes)).1 =
      .error (.tooShort (UInt32.ofNat n)) := by
  have hshort : UInt32.ofNat n < 2 := by
    rw [UInt32.lt_iff_toNat_lt, toNat_prefix]
    exact h
  rw [readFrameInner_toLeBytes, FrameCodec.readBody, if_pos hshort]

theorem readFrameInner_taken {n : Nat} (hn : 2 ≤ n % 2 ^ 32) (hservice : service ≠ 0xFFFF)
    (hlength : n % 2 ^ 32 ≤ 2 + payload.length) (rest : Bytes) :
    unlimited.readFrameInner (toLeBytes 4 n ++ (toLeBytes 2 service.toNat ++ payload) ++ rest) =
      (.ok (.message service (payload.take (n % 2 ^ 32 - 2))),
        payload.drop (n % 2 ^ 32 - 2) ++ rest) := by
  have hshort : ¬ UInt32.ofNat n < 2 := by
    rw [UInt32.lt_iff_toNat_lt, toNat_prefix]
    show ¬ n % 2 ^ 32 < 2
    omega
  have hlong : ¬ unlimited.maxMessageSize < UInt32.ofNat n := by
    rw [UInt32.lt_iff_toNat_lt, toNat_prefix]
    show ¬ 4294967295 < n % 2 ^ 32
    omega
  -- the body that the prefix announces ends somewhere in the payload
  have hsplit : toLeBytes 2 service.toNat ++ payload ++ rest =
      (toLeBytes 2 service.toNat ++ payload.take (n % 2 ^ 32 - 2)) ++
        (payload.drop (n % 2 ^ 32 - 2) ++ rest) := by
    simp only [List.append_assoc, List.append_cancel_left_eq]
    rw [← List.append_assoc, List.take_append_drop]
  have hbody :
      (toLeBytes 2 service.toNat ++ payload.take (n % 2 ^ 32 - 2)).length = n % 2 ^ 32 := by
    rw [List.length_append, length_toLeBytes, List.length_take]
    omega
  have htake := takeBytes_append (toLeBytes 2 service.toNat ++ payload.take (n % 2 ^ 32 - 2))
    (payload.drop (n % 2 ^ 32 - 2) ++ rest)
  rw [hbody] at htake
  rw [List.append_assoc, readFrameInner_toLeBytes, FrameCodec.readBody, if_neg hshort,
    if_neg hlong, toNat_prefix, hsplit, htake]
  dsimp only
  rw [acceptBody_encoded, if_neg hservice, if_neg (by rintro ⟨h, -⟩; cases h)]

theorem readFrame_enqueued (hservice : service ≠ 0xFFFF)
    (h : 2 ≤ (2 + payload.length) % 2 ^ 32) (rest : Bytes) :
    (unlimited.readFrame (frameBytes service payload ++ rest)).1 =
        .ok (.message service (payload.take ((2 + payload.length) % 2 ^ 32 - 2))) ∧
      (unlimited.readFrame (frameBytes service payload ++ rest)).2.2 =
        payload.drop ((2 + payload.length) % 2 ^ 32 - 2) ++ rest := by
  have hread := readFrameInner_taken h hservice (Nat.mod_le _ _) rest
  obtain ⟨hfirst, hleft⟩ := readFrame_unlimited (frameBytes service payload ++ rest)
  rw [frameBytes] at hfirst hleft ⊢
  rw [hread] at hfirst hleft
  exact ⟨hfirst, hleft⟩

/-- The prefix tells the truth exactly if it can hold the length. -/
theorem honest_iff_fits (hservice : service ≠ 0xFFFF) : Honest service payload ↔ Fits payload := by
  by_cases htiny : (2 + payload.length) % 2 ^ 32 < 2
  · refine iff_of_true (fun w rest => .inr ?_) (.inr htiny)
    refine ⟨.tooShort (UInt32.ofNat (2 + payload.length)), ?_⟩
    rw [drop_enqueue, (readFrame_unlimited _).1, frameBytes, List.append_assoc]
    exact readFrameInner_tiny htiny _
  have hread := readFrame_enqueued hservice (Nat.le_of_not_lt htiny)
  constructor
  · intro hhonest
    by_contra hfits
    have hlong : 2 ^ 32 ≤ 2 + payload.length := Nat.le_of_not_lt fun hlt => hfits (.inl hlt)
    have hmod : (2 + payload.length) % 2 ^ 32 < 2 ^ 32 := Nat.mod_lt _ (by decide)
    obtain hfirst | ⟨e, he⟩ := hhonest FrameWriter.new []
    · rw [drop_enqueue, (hread []).1] at hfirst
      injection hfirst with hframe
      injection hframe with _ hpayload
      have hlength := congrArg List.length hpayload
      rw [List.length_take] at hlength
      omega
    · rw [drop_enqueue, (hread []).1] at he
      cases he
  · rintro (hfits | hfits) w rest
    · left
      rw [drop_enqueue, (hread rest).1, Nat.mod_eq_of_lt hfits, Nat.add_sub_cancel_left,
        List.take_length]
    · exact absurd hfits htiny

theorem honest_iff_fits_short : Fits [1, 2, 3] ∧ Honest 7 [1, 2, 3] := by
  have hfits : Fits [1, 2, 3] := .inl (by decide)
  exact ⟨hfits, (honest_iff_fits (by decide)).mpr hfits⟩

/-- A payload that starts with a frame, padded until its prefix is that of an
empty payload. -/
def smuggling : Bytes := frameBytes 9 [1] ++ List.replicate (2 ^ 32 - 7) 0

theorem length_smuggling : smuggling.length = 2 ^ 32 := by
  have hframe : (frameBytes 9 [1]).length = 7 := rfl
  have hlength : smuggling.length = 7 + (2 ^ 32 - 7) := by
    rw [smuggling, List.length_append, hframe, List.length_replicate]
  omega

/-- The decoder takes the frame inside of the payload for one of its own. -/
theorem payload_read_as_frame :
    ¬ Honest 7 smuggling ∧
      (unlimited.readFrame (frameBytes 7 smuggling)).1 = .ok (.message 7 []) ∧
      ∃ bytes, (unlimited.readFrame (frameBytes 7 smuggling)).2.2 = frameBytes 9 [1] ++ bytes ∧
        (unlimited.readFrame (frameBytes 9 [1] ++ bytes)).1 = .ok (.message 9 [1]) := by
  have hlength := length_smuggling
  have hmod : (2 + smuggling.length) % 2 ^ 32 = 2 := by omega
  have hservice : (7 : UInt16) ≠ 0xFFFF := by decide
  obtain ⟨hfirst, hleft⟩ := readFrame_enqueued hservice (Nat.le_of_eq hmod.symm) []
  simp only [hmod, List.append_nil] at hfirst hleft
  refine ⟨fun hhonest => ?_, hfirst, List.replicate (2 ^ 32 - 7) 0, ?_, ?_⟩
  · obtain hfits | hfits := (honest_iff_fits hservice).mp hhonest
    · rw [length_smuggling] at hfits
      omega
    · omega
  · rw [hleft]
    rfl
  · rw [(readFrame_enqueued (by decide) (by decide) _).1]
    rfl

end Pane.LengthPrefix
