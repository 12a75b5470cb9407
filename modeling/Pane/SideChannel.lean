import Mathlib.Data.List.Basic
import Mathlib.Order.Basic

namespace Pane.SideChannel

variable {α : Type}

/-- A stream with two ways into it: items are put there directly, or they wait in a
channel that is drained from time to time. -/
structure Pipe (α : Type) where
  channel : List α
  stream : List α

inductive Move (α : Type)
  | direct (a : α)
  | queue (a : α)
  | drain (n : Nat)

namespace Pipe

def empty : Pipe α := ⟨[], []⟩

def move (p : Pipe α) : Move α → Pipe α
  | .direct a => { p with stream := p.stream ++ [a] }
  | .queue a => { p with channel := p.channel ++ [a] }
  | .drain n => ⟨p.channel.drop n, p.stream ++ p.channel.take n⟩

def run (p : Pipe α) (moves : List (Move α)) : Pipe α := moves.foldl move p

def contents (p : Pipe α) : List α := p.stream ++ p.channel

end Pipe

def sentOf : Move α → Option α
  | .direct a => some a
  | .queue a => some a
  | .drain _ => none

def sent (moves : List (Move α)) : List α := moves.filterMap sentOf

/-- An item that goes directly into the stream does not find one of its kind in the
channel. -/
def Undisturbed (kind : α → Bool) : Pipe α → List (Move α) → Prop
  | _, [] => True
  | p, move :: moves =>
    (∀ a, move = .direct a → kind a → ∀ b ∈ p.channel, kind b = false) ∧
      Undisturbed kind (p.move move) moves

variable {kind : α → Bool} {p : Pipe α} {moves : List (Move α)}

theorem contents_move {m : Move α}
    (h : ∀ a, m = .direct a → kind a → ∀ b ∈ p.channel, kind b = false) :
    (p.move m).contents.filter kind = p.contents.filter kind ++ (sentOf m).toList.filter kind := by
  cases m with
  | queue a =>
    have hcontents : (p.move (.queue a)).contents = p.stream ++ (p.channel ++ [a]) := rfl
    rw [hcontents, ← List.append_assoc, List.filter_append]
    rfl
  | drain n =>
    have hcontents : (p.move (.drain n)).contents = (p.stream ++ p.channel.take n) ++ p.channel.drop n :=
      rfl
    rw [hcontents, List.append_assoc, List.take_append_drop]
    exact (List.append_nil _).symm
  | direct a =>
    have hcontents : (p.move (.direct a)).contents = (p.stream ++ [a]) ++ p.channel := rfl
    have hsent : (sentOf (.direct a)).toList = [a] := rfl
    rw [hcontents, hsent, Pipe.contents, List.filter_append, List.filter_append, List.filter_append]
    cases ha : kind a with
    | false => simp [ha]
    | true =>
      have hnone : p.channel.filter kind = [] :=
        List.filter_eq_nil_iff.mpr fun b hb => by simp [h a rfl ha b hb]
      rw [hnone, List.append_nil, List.append_nil]

theorem contents_run (h : Undisturbed kind p moves) :
    (p.run moves).contents.filter kind = p.contents.filter kind ++ (sent moves).filter kind := by
  induction moves generalizing p with
  | nil => exact (List.append_nil _).symm
  | cons m moves ih =>
    have hsent : sent (m :: moves) = (sentOf m).toList ++ sent moves := by
      cases hm : sentOf m <;> simp [sent, hm]
    have hrun : p.run (m :: moves) = (p.move m).run moves := rfl
    rw [hrun, ih h.2, contents_move h.1, hsent, List.filter_append, List.append_assoc]

theorem undisturbed_of_queued (h : ∀ a, .direct a ∉ moves) : Undisturbed kind p moves := by
  induction moves generalizing p with
  | nil => trivial
  | cons m moves ih =>
    refine ⟨fun a hm => ?_, ih fun a ha => h a (List.mem_cons_of_mem _ ha)⟩
    exact absurd (hm ▸ List.mem_cons_self) (h a)

section Disturbed

variable {a b : α}

def Overtaken (a b : α) (p : Pipe α) : Prop :=
  a ∈ p.stream ∧ b ∈ p.channel ∨ [a, b].Sublist p.stream

theorem Overtaken.sublist (h : Overtaken a b p) : [a, b].Sublist p.contents := by
  obtain ⟨ha, hb⟩ | h := h
  · have hab : ([a] ++ [b]).Sublist (p.stream ++ p.channel) :=
      (List.singleton_sublist.mpr ha).append (List.singleton_sublist.mpr hb)
    exact hab
  · exact h.trans (List.sublist_append_left _ _)

theorem Overtaken.move (h : Overtaken a b p) (m : Move α) : Overtaken a b (p.move m) := by
  obtain ⟨ha, hb⟩ | h := h
  · cases m with
    | direct c => exact .inl ⟨List.mem_append_left _ ha, hb⟩
    | queue c => exact .inl ⟨ha, List.mem_append_left _ hb⟩
    | drain n =>
      rw [← List.take_append_drop n p.channel] at hb
      obtain hb | hb := List.mem_append.mp hb
      · have hab : ([a] ++ [b]).Sublist (p.stream ++ p.channel.take n) :=
          (List.singleton_sublist.mpr ha).append (List.singleton_sublist.mpr hb)
        exact .inr hab
      · exact .inl ⟨List.mem_append_left _ ha, hb⟩
  · refine .inr ?_
    cases m with
    | direct c => exact h.trans (List.sublist_append_left _ _)
    | queue c => exact h
    | drain n => exact h.trans (List.sublist_append_left _ _)

theorem Overtaken.run (h : Overtaken a b p) (moves : List (Move α)) : Overtaken a b (p.run moves) := by
  induction moves generalizing p with
  | nil => exact h
  | cons m moves ih => exact ih (h.move m)

theorem overtaken_of_not_undisturbed (h : ¬ Undisturbed kind p moves) :
    ∃ before a after b, moves = before ++ .direct a :: after ∧ kind a ∧ kind b ∧
      b ∈ (p.run before).channel ∧ Overtaken a b (p.run moves) := by
  induction moves generalizing p with
  | nil => exact absurd trivial h
  | cons m moves ih =>
    by_cases hm : ∀ a, m = .direct a → kind a → ∀ b ∈ p.channel, kind b = false
    · obtain ⟨before, a, after, b, rfl, ha, hb, hchannel, hovertaken⟩ := ih fun hrest => h ⟨hm, hrest⟩
      exact ⟨m :: before, a, after, b, rfl, ha, hb, hchannel, hovertaken⟩
    · push Not at hm
      obtain ⟨a, rfl, ha, b, hb, hkind⟩ := hm
      refine ⟨[], a, moves, b, rfl, ha, by simpa using hkind, hb, ?_⟩
      have hover : Overtaken a b (p.move (.direct a)) :=
        .inl ⟨List.mem_append_right _ List.mem_cons_self, hb⟩
      exact hover.run moves

theorem mem_sent_of_channel (hb : b ∈ ((Pipe.empty : Pipe α).run moves).channel) : b ∈ sent moves := by
  have hmem : ∀ (p : Pipe α) (moves : List (Move α)), b ∈ (p.run moves).channel →
      b ∈ p.channel ∨ b ∈ sent moves := by
    intro p moves
    induction moves generalizing p with
    | nil => exact fun h => .inl h
    | cons m moves ih =>
      intro h
      obtain h | h := ih (p.move m) h
      · cases m with
        | direct a => exact .inl h
        | queue a =>
          obtain h | h := List.mem_append.mp h
          · exact .inl h
          · rw [List.mem_singleton.mp h]
            exact .inr List.mem_cons_self
        | drain n => exact .inl (List.mem_of_mem_drop h)
      · refine .inr ?_
        rw [sent, List.filterMap_cons]
        cases sentOf m with
        | none => exact h
        | some a => exact List.mem_cons_of_mem _ h
  exact (hmem _ moves hb).resolve_left List.not_mem_nil

end Disturbed

theorem contents_eq_sent_iff {key : α → Nat}
    (hkey : (sent moves).Pairwise fun a b => key a < key b) :
    ((Pipe.empty : Pipe α).run moves).contents.filter kind = (sent moves).filter kind ↔
      Undisturbed kind Pipe.empty moves := by
  constructor
  · intro heq
    by_contra hnot
    obtain ⟨before, a, after, b, rfl, ha, hb, hchannel, hovertaken⟩ := overtaken_of_not_undisturbed hnot
    have hsorted : ((sent (before ++ .direct a :: after)).filter kind).Pairwise
        fun a b => key a < key b := hkey.filter kind
    have hsub := hovertaken.sublist.filter kind
    rw [heq] at hsub
    have hab : ([a, b].filter kind) = [a, b] := by simp [ha, hb]
    rw [hab] at hsub
    have hlt : key a < key b := by simpa using hsorted.sublist hsub
    have hsplit : sent (before ++ .direct a :: after) = sent before ++ a :: sent after := by
      simp [sent, sentOf]
    rw [hsplit, List.pairwise_append] at hkey
    have hgt : key b < key a :=
      hkey.2.2 b (mem_sent_of_channel hchannel) a List.mem_cons_self
    exact Nat.lt_asymm hlt hgt
  · intro h
    rw [contents_run h]
    rfl

end Pane.SideChannel
