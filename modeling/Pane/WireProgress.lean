import Mathlib.Algebra.Order.BigOperators.Group.Finset
import Mathlib.Data.Prod.Lex
import Mathlib.Data.Fintype.OfMap
import Pane.FrameLimits
import Pane.InOrderDelivery
import Pane.Machines

namespace Pane.WireProgress

open Pane.HashTable Pane.Messages Pane.Server Pane.ServerActor Pane.Framing Pane.Serialization
open Pane.CoreRequest Pane.ConnectionSource Pane.Links Pane.Streams Pane.Machines
open Pane.FrameLimits Pane.WireSystem Pane.InOrderDelivery

variable {limit : UInt32} {q q' : Stream} {x y : System Stream}

/-- The steps in which the threads get on with what was sent already. Nothing new
is sent, and nobody comes or leaves of their own accord. -/
def Onward (x : System Stream) : Label → Prop
  | .wire c (.driftUp n) => n ≠ 0 ∧ (x.wires c).up.unsent ≠ []
  | .wire c (.driftDown n) => n ≠ 0 ∧ (x.wires c).down.unsent ≠ []
  | .wire _ .serverRead => True
  | .wire _ .serverWrite => True
  | .wire _ .paneRead => True
  | .act _ => True
  | _ => False

section Bytes

theorem length_of_readFrameInner {codec : FrameCodec} {bytes : Bytes}
    (h : (codec.readFrameInner bytes).1 ≠ .error .endOfStream) :
    (codec.readFrameInner bytes).2.length < bytes.length := by
  by_cases hfour : 4 ≤ bytes.length
  · rw [FrameCodec.readFrameInner, takeBytes, if_pos hfour] at h ⊢
    dsimp only [FrameCodec.readBody] at h ⊢
    split
    · rw [List.length_drop]
      omega
    · split
      · rw [List.length_drop]
        omega
      · next hshort hlong =>
        rw [if_neg hshort, if_neg hlong] at h
        rw [takeBytes] at h ⊢
        split
        · next hbody =>
          split at hbody
          · cases hbody
          · next hnone =>
            rw [if_neg hnone] at h
            exact absurd rfl h
        · next hbody =>
          split at hbody
          · cases hbody
            rw [List.length_drop, List.length_drop]
            omega
          · cases hbody
  · rw [FrameCodec.readFrameInner, takeBytes_short (Nat.lt_of_not_le hfour)] at h
    exact absurd rfl h

theorem receive_shortens {found : Option WriteMessage}
    (h : (byteStream limit).receive q = some (found, q')) :
    q'.unsent = q.unsent ∧ q'.transit.length < q.transit.length := by
  have hread : (byteStream limit).receive q ≠ none := by
    rw [h]
    exact Option.some_ne_none _
  have hlength := length_of_readFrameInner fun hend => hread (receive_of_endOfStream hend)
  simp only [byteStream] at h
  split at h
  · next hframe =>
    cases h
    rw [hframe] at hlength
    exact ⟨rfl, hlength⟩
  · next hframe =>
    cases h
    rw [hframe] at hlength
    exact ⟨rfl, hlength⟩
  · next hframe =>
    split at h
    · cases h
    · cases h
      rw [hframe] at hlength
      exact ⟨rfl, hlength⟩

theorem fits_of_receive {frame : WriteMessage}
    (h : (byteStream limit).receive q = some (some frame, q')) :
    Fits limit frame := by
  simp only [byteStream] at h
  split at h
  · next service payload rest hread =>
    cases h
    exact readFrameInner_fits hread
  · cases h
  · split at h <;> cases h

theorem drift_shortens (limit : UInt32) {n : Nat} (hn : n ≠ 0) (hq : q.unsent ≠ []) :
    ((byteStream limit).drift n q).unsent.length < q.unsent.length := by
  have hpositive := List.length_pos_iff.mpr hq
  dsimp only [byteStream]
  rw [List.length_drop]
  omega

end Bytes

section Work

theorem id_toFin_injective : Function.Injective fun c : ConnectionId => c.id.toFin := by
  intro c d h
  cases c
  cases d
  cases UInt64.toFin_inj.mp h
  rfl

noncomputable instance : Fintype ConnectionId := Fintype.ofInjective _ id_toFin_injective

noncomputable def total (f : Wire Stream → Nat) (x : System Stream) : Nat := ∑ c, f (x.wires c)

noncomputable def work (x : System Stream) : ℕ ×ₗ ℕ ×ₗ ℕ ×ₗ ℕ ×ₗ ℕ ×ₗ ℕ :=
  toLex (total (fun w => w.up.unsent.length) x, toLex (total (fun w => w.up.transit.length) x,
    toLex (x.queue.length, toLex (total (fun w => w.channel.length) x,
      toLex (total (fun w => w.down.unsent.length) x, total (fun w => w.down.transit.length) x)))))

variable {f : Wire Stream → Nat} {c : ConnectionId} {w : Wire Stream} {queue : List ServerEvent}

theorem total_update (h : f w = f (x.wires c)) :
    total f { x with wires := Function.update x.wires c w, queue } = total f x := by
  apply Finset.sum_congr rfl
  intro d _
  dsimp only
  by_cases hd : d = c
  · rw [hd, Function.update_self, h]
  · rw [Function.update_of_ne hd]

theorem total_update_lt (h : f w < f (x.wires c)) :
    total f { x with wires := Function.update x.wires c w, queue } < total f x := by
  apply Finset.sum_lt_sum
  · intro d _
    dsimp only
    by_cases hd : d = c
    · rw [hd, Function.update_self]
      exact Nat.le_of_lt h
    · rw [Function.update_of_ne hd]
  · refine ⟨c, Finset.mem_univ c, ?_⟩
    dsimp only
    rwa [Function.update_self]

variable {pc : Postcard} {accepts : Nat → Bool} {limits : ConnectionId → UInt32}

theorem work_up (h : w.up.unsent.length < (x.wires c).up.unsent.length ∨
      w.up.unsent = (x.wires c).up.unsent ∧
        w.up.transit.length < (x.wires c).up.transit.length) :
    work { x with wires := Function.update x.wires c w, queue } < work x := by
  simp only [work, Prod.Lex.toLex_lt_toLex]
  obtain hless | ⟨hunsent, hless⟩ := h
  · left
    apply total_update_lt
    exact hless
  · refine .inr ⟨total_update (by rw [hunsent]), .inl ?_⟩
    apply total_update_lt
    exact hless

theorem work_down (hup : w.up = (x.wires c).up) (hchannel : w.channel = (x.wires c).channel)
    (h : w.down.unsent.length < (x.wires c).down.unsent.length ∨
      w.down.unsent = (x.wires c).down.unsent ∧
        w.down.transit.length < (x.wires c).down.transit.length) :
    work { x with wires := Function.update x.wires c w, queue := x.queue ++ [] } < work x := by
  rw [List.append_nil]
  simp only [work, Prod.Lex.toLex_lt_toLex]
  refine .inr ⟨total_update (by rw [hup]), .inr ⟨total_update (by rw [hup]), .inr ⟨trivial,
    .inr ⟨total_update (by rw [hchannel]), ?_⟩⟩⟩⟩
  obtain hless | ⟨hunsent, hless⟩ := h
  · left
    apply total_update_lt
    exact hless
  · refine .inr ⟨total_update (by rw [hunsent]), ?_⟩
    apply total_update_lt
    exact hless

theorem work_move {action : Action} {posted : List ServerEvent} (hon : Onward x (.wire c action))
    (hmove : Move (overStreams pc accepts limits) c (x.wires c) action w posted) :
    work { x with wires := Function.update x.wires c w, queue := x.queue ++ posted } < work x := by
  cases hmove with
  | greet bytes down hphase hbytes hsend => cases hon
  | register hello hphase => cases hon
  | send frame up hsend => cases hon
  | leave hphase => cases hon
  | deafen => cases hon
  | driftUp n =>
    have hless := drift_shortens (limits c) hon.1 hon.2
    exact work_up (.inl hless)
  | read frame up hphase hreceive => exact work_up (.inr (receive_shortens hreceive))
  | broken up hphase hreceive => exact work_up (.inr (receive_shortens hreceive))
  | write frame channel down hphase hchannel hsend =>
    rw [List.append_nil]
    simp only [work, Prod.Lex.toLex_lt_toLex]
    refine .inr ⟨total_update rfl, .inr ⟨total_update rfl, .inr ⟨trivial, .inl ?_⟩⟩⟩
    apply total_update_lt
    rw [hchannel]
    exact Nat.lt_succ_self _
  | driftDown n =>
    have hless := drift_shortens (limits c) hon.1 hon.2
    exact work_down rfl rfl (.inl hless)
  | deliver frame down deaf hhears hreceive =>
    exact work_down rfl rfl (.inr (receive_shortens hreceive))
  | cut down hreceive => exact work_down rfl rfl (.inr (receive_shortens hreceive))

theorem work_act {order : HashOrder}
    (hact : x.act (overStreams pc accepts limits) order = some y) : work y < work x := by
  simp only [work, Prod.Lex.toLex_lt_toLex]
  rw [System.act] at hact
  split at hact
  · cases hact
  · next event queue hqueue =>
    cases hact
    refine .inr ⟨rfl, .inr ⟨rfl, .inl ?_⟩⟩
    rw [hqueue]
    exact Nat.lt_succ_self _

end Work

/-- The threads come to rest. Whatever bytes and frames there are, and in whichever
order the threads take their turns, they cannot go on forever unless something new
is sent or somebody comes or leaves. -/
theorem work_ends (pc : Postcard) (accepts : Nat → Bool) (limits : ConnectionId → UInt32) :
    WellFounded fun y x => (wires (overStreams pc accepts limits)).Next Onward x y := by
  refine Subrelation.wf (fun {y x} hnext => ?_) (InvImage.wf work wellFounded_lt)
  obtain ⟨label, hon, hstep⟩ := hnext
  cases label with
  | act order => exact work_act hstep
  | wire c action =>
    obtain ⟨⟨w, posted⟩, hrun, hy⟩ := Option.bind_eq_some_iff.mp hstep
    cases hy
    exact work_move hon (move_of_run hrun)

end Pane.WireProgress
