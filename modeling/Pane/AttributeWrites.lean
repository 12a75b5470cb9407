import Pane.Attributes

namespace Pane.AttributeWrites

open Pane.JsonText Pane.Attributes

variable {S : Type}

def isLens : Registration S → Bool
  | .lens _ _ => true
  | .reader _ => false

def PutGet : Registration S → Prop
  | .lens _ l => ∀ state a, l.view (l.set state a).2 = a
  | .reader _ => True

def shown : Registration S → Text → Option Text
  | .lens display l, text =>
    match l.parse text with
    | .ok a => some (display a)
    | .error _ => none
  | .reader _, _ => none

def lensOf (regs : List (Registration S)) (name : Text) : Option (Registration S) :=
  regs.find? fun reg => isLens reg && decide (reg.name = name)

/-- Some reader of that name stands before every lens of it. -/
def Shadowed (regs : List (Registration S)) (name : Text) : Prop :=
  ∃ r, regs.find? (fun reg => reg.name = name) = some (.reader r)

/-- The reader shows the value that a write of the text sets, in the state after it. -/
def Mirrors (r : AttrReader S) (text : Text) (state : S) : Registration S → Prop
  | .lens display l => ∀ a, l.parse text = .ok a → r.read (l.set state a).2 = display a
  | .reader _ => True

/-- If some reader of that name stands before every lens of it, it shows what a write
of the text sets. -/
def Mirrored (regs : List (Registration S)) (name text : Text) (state : S) : Prop :=
  ∀ r lens, regs.find? (fun reg => reg.name = name) = some (.reader r) →
    lensOf regs name = some lens → Mirrors r text state lens

/-- After a write of the text, the attribute reads as the value that was parsed. -/
def ReadsBack (regs : List (Registration S)) (name text : Text) (state : S) : Prop :=
  ∃ reg val, lensOf regs name = some reg ∧ shown reg text = some val ∧
    (build regs).read name state = some val

def ctlResult (debug : WriteError → Text) : Except WriteError (List Effect) → CtlResult
  | .ok effects => if effects.isEmpty then .pure else .withEffects effects
  | .error e => .err (debug e)

def Succeeds (result : CtlResult) : Prop :=
  result = .pure ∨ ∃ effects, result = .withEffects effects

variable {regs : List (Registration S)} {name text : Text} {state : S}

theorem read_build :
    (build regs).read name state =
      (regs.find? fun reg => reg.name = name).map fun reg => reg.toReader.read state := by
  rw [AttrSet.read, readers_build, List.find?_map, Option.map_map]
  simp only [Function.comp_def, toReader_name]

theorem findWriter_build :
    (build regs).findWriter name = (lensOf regs name).bind Registration.toWriter := by
  rw [AttrSet.findWriter, writers_build, List.find?_filterMap, lensOf]
  congr 2
  funext reg
  cases reg with
  | lens display l => exact (Bool.true_and _).symm
  | reader r => rfl

theorem lensOf_some {reg : Registration S} (h : lensOf regs name = some reg) :
    reg ∈ regs ∧ isLens reg = true ∧ reg.name = name := by
  have hfound := List.find?_some h
  rw [Bool.and_eq_true, decide_eq_true_eq] at hfound
  exact ⟨List.mem_of_find?_eq_some h, hfound⟩

theorem find_of_lensOf {reg : Registration S} (h : lensOf regs name = some reg)
    (hshadowed : ¬ Shadowed regs name) :
    regs.find? (fun reg => reg.name = name) = some reg := by
  cases hfound : regs.find? (fun reg => reg.name = name) with
  | none =>
    obtain ⟨hmem, -, hname⟩ := lensOf_some h
    have hnot := List.find?_eq_none.mp hfound reg hmem
    exact absurd (decide_eq_true hname) hnot
  | some first =>
    have hlens : isLens first = true := by
      cases first with
      | lens display l => rfl
      | reader r => exact absurd ⟨r, hfound⟩ hshadowed
    obtain ⟨hname, before, after, hregs, hbefore⟩ := List.find?_eq_some_iff_append.mp hfound
    have hfirst : lensOf regs name = some first := by
      refine List.find?_eq_some_iff_append.mpr ⟨?_, before, after, hregs, fun reg hreg => ?_⟩
      · rw [hlens, hname, Bool.and_self]
      · rw [Bool.not_and, hbefore reg hreg, Bool.or_true]
    rw [← h, hfirst]

theorem write_build :
    (build regs).write name state text =
      match (lensOf regs name).bind Registration.toWriter with
      | none => (.error .readOnly, state)
      | some w => w.write state text := by
  cases h : (lensOf regs name).bind Registration.toWriter with
  | none => rw [AttrSet.write, findWriter_build, h]
  | some w => rw [AttrSet.write, findWriter_build, h]

theorem write_error {e : WriteError} (h : ((build regs).write name state text).1 = .error e) :
    ((build regs).write name state text).2 = state := by
  rw [write_build] at h ⊢
  cases hlens : lensOf regs name with
  | none => rfl
  | some reg =>
    cases reg with
    | reader r => rfl
    | lens display l =>
      rw [hlens] at h
      simp only [Option.bind_some, Registration.toWriter, AttrWriter.fromMonadicLens] at h ⊢
      cases hparse : l.parse text with
      | error e => rfl
      | ok a =>
        rw [hparse] at h
        cases h

theorem write_lens {A : Type} {display : A → Text} {l : MonadicLens S A} {a : A}
    (hlens : lensOf regs name = some (.lens display l)) (hparse : l.parse text = .ok a) :
    (build regs).write name state text = (.ok (l.set state a).1, (l.set state a).2) := by
  rw [write_build, hlens]
  simp only [Option.bind_some, Registration.toWriter, AttrWriter.fromMonadicLens, hparse]

theorem lens_of_write_ok {effects : List Effect}
    (h : ((build regs).write name state text).1 = .ok effects) :
    ∃ (A : Type) (display : A → Text) (l : MonadicLens S A) (a : A),
      lensOf regs name = some (.lens display l) ∧ l.parse text = .ok a := by
  rw [write_build] at h
  cases hlens : lensOf regs name with
  | none =>
    rw [hlens] at h
    cases h
  | some reg =>
    rw [hlens] at h
    cases reg with
    | reader r => cases h
    | @lens A display l =>
      simp only [Option.bind_some, Registration.toWriter, AttrWriter.fromMonadicLens] at h
      cases hparse : l.parse text with
      | ok a => exact ⟨A, display, l, a, rfl, hparse⟩
      | error e =>
        rw [hparse] at h
        cases h

theorem readsBack_iff {A : Type} {display : A → Text} {l : MonadicLens S A} {a : A} {state : S}
    (hlens : lensOf regs name = some (.lens display l)) (hparse : l.parse text = .ok a) :
    ReadsBack regs name text state ↔ (build regs).read name state = some (display a) := by
  have hshown : shown (.lens display l) text = some (display a) := by simp only [shown, hparse]
  constructor
  · rintro ⟨reg, val, hreg, hval, hread⟩
    cases hlens.symm.trans hreg
    rw [hread, ← hval, hshown]
  · exact fun hread => ⟨_, display a, hlens, hshown, hread⟩

theorem write_ok_iff (hlaw : ∀ reg ∈ regs, PutGet reg) {effects : List Effect}
    (h : ((build regs).write name state text).1 = .ok effects) :
    ReadsBack regs name text ((build regs).write name state text).2 ↔
      Mirrored regs name text state := by
  obtain ⟨A, display, l, a, hlens, hparse⟩ := lens_of_write_ok h
  rw [readsBack_iff hlens hparse, write_lens hlens hparse, read_build]
  by_cases hshadowed : Shadowed regs name
  · obtain ⟨r, hr⟩ := hshadowed
    rw [hr]
    constructor
    · intro hread r' lens hr' hlens'
      cases hr.symm.trans hr'
      cases hlens.symm.trans hlens'
      intro a' hparse'
      cases hparse.symm.trans hparse'
      exact Option.some.inj hread
    · exact fun hmirrored => congrArg some (hmirrored r _ hr hlens a hparse)
  · have hview : l.view (l.set state a).2 = a := hlaw _ (lensOf_some hlens).1 state a
    rw [find_of_lensOf hlens hshadowed]
    constructor
    · exact fun _ r _ hr _ => absurd ⟨r, hr⟩ hshadowed
    · exact fun _ => congrArg (fun a => some (display a)) hview

theorem dispatchCtl_eq_write {debug : WriteError → Text}
    {fallback : S → Text → Text → CtlResult × S} {attrs : AttrSet S}
    (h : (attrs.findWriter name).isSome) :
    dispatchCtl debug attrs state name text fallback =
      (ctlResult debug (attrs.write name state text).1, (attrs.write name state text).2) := by
  obtain ⟨w, hw⟩ := Option.isSome_iff_exists.mp h
  simp only [dispatchCtl, AttrSet.write, hw]
  generalize w.write state text = written
  obtain ⟨outcome, state'⟩ := written
  cases outcome with
  | ok effects => rfl
  | error e => rfl

theorem ok_of_succeeds {debug : WriteError → Text} {outcome : Except WriteError (List Effect)}
    (h : Succeeds (ctlResult debug outcome)) : ∃ effects, outcome = .ok effects := by
  cases outcome with
  | ok effects => exact ⟨effects, rfl⟩
  | error e =>
    obtain h | ⟨effects, h⟩ := h
    · nomatch h
    · nomatch h

theorem error_of_err {debug : WriteError → Text} {outcome : Except WriteError (List Effect)}
    {message : Text} (h : ctlResult debug outcome = .err message) : ∃ e, outcome = .error e := by
  cases outcome with
  | ok effects =>
    cases effects with
    | nil => nomatch h
    | cons effect effects => nomatch h
  | error e => exact ⟨e, rfl⟩

/-- Lenses that give back what was set, registered among any readers: a write that
fails leaves the state as it was, and one that succeeds reads back just if a reader of
the same name that was registered first shows what was set. -/
theorem written_attributes_read_back (regs : List (Registration S))
    (hlaw : ∀ reg ∈ regs, PutGet reg) (name text : Text) (state : S) :
    (∀ effects, ((build regs).write name state text).1 = .ok effects →
      (ReadsBack regs name text ((build regs).write name state text).2 ↔
        Mirrored regs name text state)) ∧
    (∀ e, ((build regs).write name state text).1 = .error e →
      ((build regs).write name state text).2 = state) ∧
    ∀ debug fallback, ((build regs).findWriter name).isSome →
      (Succeeds (dispatchCtl debug (build regs) state name text fallback).1 →
        (ReadsBack regs name text (dispatchCtl debug (build regs) state name text fallback).2 ↔
          Mirrored regs name text state)) ∧
      ∀ message, (dispatchCtl debug (build regs) state name text fallback).1 = .err message →
        (dispatchCtl debug (build regs) state name text fallback).2 = state := by
  refine ⟨fun effects h => write_ok_iff hlaw h, fun e h => write_error h, ?_⟩
  intro debug fallback hwriter
  rw [dispatchCtl_eq_write hwriter]
  constructor
  · intro h
    obtain ⟨effects, hok⟩ := ok_of_succeeds h
    exact write_ok_iff hlaw hok
  · intro message h
    obtain ⟨e, herror⟩ := error_of_err h
    exact write_error herror

def titleLens : MonadicLens Text Text :=
  ⟨"title".toList, id, fun _ a => ([], a), .ok⟩

theorem putGet_titleLens {r : AttrReader Text} :
    ∀ reg ∈ [.reader r, .lens id titleLens], PutGet reg := by
  intro reg hreg
  obtain rfl | hreg := List.mem_cons.mp hreg
  · trivial
  · rw [List.mem_singleton.mp hreg]
    exact fun _ _ => rfl

-- The reader that stands first shows the state itself, which is what the lens sets.
theorem written_attributes_read_back_title :
    let regs := [.reader (.new id "title".toList id), .lens id titleLens]
    Shadowed regs "title".toList ∧
      ReadsBack regs "title".toList "new".toList
        ((build regs).write "title".toList "old".toList "new".toList).2 := by
  refine ⟨⟨_, rfl⟩, ((written_attributes_read_back _ putGet_titleLens "title".toList
    "new".toList "old".toList).1 [] rfl).mpr ?_⟩
  intro r lens hr hlens
  cases hr
  cases hlens
  intro a hparse
  cases hparse
  rfl

def shadowing : List (Registration Text) :=
  [.reader (.new id "title".toList fun _ => "fixed".toList), .lens id titleLens]

/-- The write succeeds with its value in the state, and the read still gives the text
of the reader that came first. -/
theorem shadowed_write_not_read_back :
    (∀ reg ∈ shadowing, PutGet reg) ∧
    (build shadowing).write "title".toList "old".toList "new".toList =
      (.ok [], "new".toList) ∧
    (build shadowing).read "title".toList "new".toList = some "fixed".toList ∧
    ¬ ReadsBack shadowing "title".toList "new".toList
      ((build shadowing).write "title".toList "old".toList "new".toList).2 := by
  refine ⟨putGet_titleLens, rfl, rfl, ?_⟩
  rintro ⟨reg, val, hlens, hshown, hread⟩
  have hreg : reg = .lens id titleLens := (Option.some.inj hlens).symm
  rw [hreg] at hshown
  exact absurd (hread.trans hshown.symm) (by decide)

end Pane.AttributeWrites
