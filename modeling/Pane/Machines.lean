import Mathlib.Data.Option.Basic
import Mathlib.Logic.Relation
import Mathlib.Order.WellFounded

namespace Pane.Machines

variable {S T L M : Type}

/-- A machine that takes labelled steps, where it can. -/
structure Machine (S L : Type) where
  starts : S → Prop
  step : S → L → Option S

namespace Machine

/-- The states that the machine can get into when all steps are `ok`. -/
inductive Reachable (m : Machine S L) (ok : S → L → Prop) : S → Prop
  | start {s : S} (hs : m.starts s) : Reachable m ok s
  | step {s s' : S} (label : L) (hs : Reachable m ok s) (hok : ok s label)
    (hstep : m.step s label = some s') : Reachable m ok s'

def Next (m : Machine S L) (ok : S → L → Prop) (s s' : S) : Prop :=
  ∃ label, ok s label ∧ m.step s label = some s'

variable {m : Machine S L} {n : Machine T M} {ok : S → L → Prop} {ok' : T → M → Prop}

theorem Reachable.invariant {I : S → Prop} {s : S} (h : m.Reachable ok s) (hstart : ∀ s, m.starts s → I s)
    (hstep : ∀ s s' label, I s → ok s label → m.step s label = some s' → I s') : I s := by
  induction h with
  | start hs => exact hstart _ hs
  | step label _ hok hs ih => exact hstep _ _ label ih hok hs

theorem Reachable.steps {s s' : S} (h : m.Reachable ok s)
    (hsteps : Relation.ReflTransGen (m.Next ok) s s') : m.Reachable ok s' := by
  induction hsteps with
  | refl => exact h
  | tail _ hnext ih =>
    obtain ⟨label, hok, hstep⟩ := hnext
    exact .step label ih hok hstep

def run (m : Machine S L) : List L → S → Option S
  | [], s => some s
  | label :: labels, s => (m.step s label).bind (run m labels)

theorem Reachable.run {s s' : S} {labels : List L} (hok : ∀ label ∈ labels, ∀ s, ok s label)
    (h : m.Reachable ok s) (hrun : m.run labels s = some s') : m.Reachable ok s' := by
  induction labels generalizing s with
  | nil =>
    cases hrun
    exact h
  | cons label labels ih =>
    obtain ⟨t, hstep, hrest⟩ := Option.bind_eq_some_iff.mp hrun
    have hnext := h.step label (hok label List.mem_cons_self s) hstep
    exact ih (fun l hl => hok l (List.mem_cons_of_mem label hl)) hnext hrest

variable (m n ok ok') in
/-- Every step of `m` is matched by some steps of `n`, in runs that end in a state
with `P`. What `P` says about the end of a run holds all along it. -/
structure Simulation (P : S → Prop) (R : S → T → Prop) : Prop where
  start : ∀ {s}, m.starts s → ∃ t, n.starts t ∧ R s t
  back : ∀ {s s' label}, m.step s label = some s' → P s' → P s
  step : ∀ {s s' t label}, m.Reachable ok s → R s t → P s' → ok s label →
    m.step s label = some s' → ∃ t', Relation.ReflTransGen (n.Next ok') t t' ∧ R s' t'

theorem Simulation.reachable {P : S → Prop} {R : S → T → Prop} (h : Simulation m n ok ok' P R)
    {s : S} (hs : m.Reachable ok s) (hP : P s) : ∃ t, n.Reachable ok' t ∧ R s t := by
  induction hs with
  | start hs =>
    obtain ⟨t, ht, hR⟩ := h.start hs
    exact ⟨t, .start ht, hR⟩
  | step label hs hok hstep ih =>
    obtain ⟨t, ht, hR⟩ := ih (h.back hstep hP)
    obtain ⟨t', hsteps, hR'⟩ := h.step hs hR hP hok hstep
    exact ⟨t', ht.steps hsteps, hR'⟩

end Machine

end Pane.Machines
