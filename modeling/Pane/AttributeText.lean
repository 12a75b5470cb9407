import Pane.Attributes
import Pane.JsonKeys

namespace Pane.AttributeText

open Pane.JsonText Pane.JsonKeys Pane.Attributes

variable {S : Type}

/-- The text is an object whose members are the attributes with their values. Readers
of JSON differ in which of several members of one name they keep, so each counts. -/
def Faithful (attrs : AttrSet S) (state : S) : Prop :=
  ∃ ms, parse (attrs.toJsonStr state) = some (.object ms) ∧
    ∀ name json, (name, json) ∈ ms ↔
      ∃ val, attrs.read name state = some val ∧ json = .string val

def escapedChar (c : Char) : Text :=
  if c = '\\' then ['\\', '\\']
  else if c = '"' then ['\\', '"']
  else if c = '\n' then ['\\', 'n']
  else [c]

/-- Of the control characters, only the newline is escaped. -/
def Clean (c : Char) : Prop := isControl c = true → c = '\n'

instance : DecidablePred Clean := fun _ => inferInstanceAs (Decidable (_ → _))

theorem escaped_eq (val : Text) : escaped val = val.flatMap escapedChar := by
  rw [escaped, replace, replace, replace, List.flatMap_assoc, List.flatMap_assoc]
  congr 1
  funext c
  by_cases hbackslash : c = '\\'
  · rw [hbackslash]
    rfl
  by_cases hquote : c = '"'
  · rw [hquote]
    rfl
  by_cases hnewline : c = '\n'
  · rw [hnewline]
    rfl
  · simp [escapedChar, hbackslash, hquote, hnewline]

theorem encodes_escapedChar {c : Char} (h : Clean c) : Encodes (escapedChar c) c := by
  by_cases hbackslash : c = '\\'
  · rw [hbackslash]
    exact .inr ⟨'\\', rfl, by decide, rfl⟩
  by_cases hquote : c = '"'
  · rw [hquote]
    exact .inr ⟨'"', rfl, by decide, rfl⟩
  by_cases hnewline : c = '\n'
  · rw [hnewline]
    exact .inr ⟨'n', rfl, by decide, rfl⟩
  · rw [escapedChar, if_neg hbackslash, if_neg hquote, if_neg hnewline]
    exact .inl ⟨rfl, hquote, hbackslash, Bool.eq_false_iff.mpr fun hc => hnewline (h hc)⟩

theorem guarded_escaped (val : Text) : Guarded (escaped val) := by
  rw [escaped_eq]
  induction val with
  | nil => exact guarded_of_notMem List.not_mem_nil
  | cons c val ih =>
    refine Guarded.append ?_ ih
    by_cases hquote : c = '"'
    · rw [hquote]
      exact guarded_quote
    · refine guarded_of_notMem ?_
      rw [escapedChar]
      repeat' split
      all_goals simp [Ne.symm hquote]

theorem escapedChar_control {c : Char} (h : ¬ Clean c) :
    escapedChar c = [c] ∧ isControl c = true := by
  obtain ⟨hcontrol, hnewline⟩ := Classical.not_imp.mp h
  refine ⟨?_, hcontrol⟩
  have hbackslash : c ≠ '\\' := by
    rintro rfl
    exact absurd hcontrol (by decide)
  have hquote : c ≠ '"' := by
    rintro rfl
    exact absurd hcontrol (by decide)
  rw [escapedChar, if_neg hbackslash, if_neg hquote, if_neg hnewline]

def readBack (val : Text) : Option Text := if val.all fun c => Clean c then some val else none

theorem readsAs_escaped (val : Text) : ReadsAs (escaped val) (readBack val) := by
  rw [escaped_eq, readBack]
  split
  next h =>
    have hclean : ∀ c ∈ val, Clean c := by simpa using h
    exact readsAs_encoded fun c hc => encodes_escapedChar (hclean c hc)
  next h =>
    have hexists : ∃ c, c ∈ val ∧ ¬ Clean c := by simpa using h
    obtain ⟨c, hc, hclean⟩ := hexists
    refine readsAs_control (fun d _ => ?_) ⟨c, hc, escapedChar_control hclean⟩
    by_cases hd : Clean d
    · exact .inl (encodes_escapedChar hd)
    · exact .inr (escapedChar_control hd)

def ordered (attrs : AttrSet S) (state : S) : List (AttrReader S) :=
  attrs.readers.mergeSort fun a b =>
    decide (memberText a.name (escaped (a.read state)) ≤ memberText b.name (escaped (b.read state)))

theorem mem_ordered {attrs : AttrSet S} {state : S} {r : AttrReader S} :
    r ∈ ordered attrs state ↔ r ∈ attrs.readers :=
  List.mem_mergeSort

theorem toJsonStr_eq (attrs : AttrSet S) (state : S) :
    attrs.toJsonStr state =
      '{' :: ([','].intercalate ((ordered attrs state).map fun r =>
        memberText r.name (escaped (r.read state))) ++ ['}']) := by
  rw [ordered, List.map_mergeSort (s := fun a b => decide (a ≤ b)) fun _ _ _ _ => rfl]
  rfl

variable {attrs : AttrSet S} {state : S}

theorem parse_toJsonStr (hnames : ∀ name ∈ attrs.names, ∀ c ∈ name, Plain c) :
    parse (attrs.toJsonStr state) =
      ((ordered attrs state).mapM fun r =>
        (readBack (r.read state)).map fun val => (r.name, Json.string val)).map Json.object := by
  rw [toJsonStr_eq]
  refine parse_joined (fun r hr => readsAs_plain ?_) fun r _ => readsAs_escaped (r.read state)
  exact hnames r.name (List.mem_map_of_mem (mem_ordered.mp hr))

section Options

variable {α β : Type} {f : α → Option β} {as : List α}

theorem mapM_of_forall {g : α → β} (h : ∀ a ∈ as, f a = some (g a)) :
    as.mapM f = some (as.map g) := by
  induction as with
  | nil => rfl
  | cons a as ih =>
    rw [List.mapM_cons, h a List.mem_cons_self, ih fun b hb => h b (List.mem_cons_of_mem a hb)]
    rfl

theorem isSome_of_mapM {bs : List β} (h : as.mapM f = some bs) : ∀ a ∈ as, (f a).isSome := by
  induction as generalizing bs with
  | nil => exact fun a ha => nomatch ha
  | cons a as ih =>
    rw [List.mapM_cons] at h
    obtain ⟨b, hb, hrest⟩ := Option.bind_eq_some_iff.mp h
    obtain ⟨bs, hbs, -⟩ := Option.bind_eq_some_iff.mp hrest
    intro d hd
    obtain rfl | hd := List.mem_cons.mp hd
    · exact Option.isSome_of_eq_some hb
    · exact ih hbs d hd

end Options

theorem parse_of_clean (hnames : ∀ name ∈ attrs.names, ∀ c ∈ name, Plain c)
    (hclean : ∀ r ∈ attrs.readers, ∀ c ∈ r.read state, Clean c) :
    parse (attrs.toJsonStr state) =
      some (.object ((ordered attrs state).map fun r => (r.name, .string (r.read state)))) := by
  rw [parse_toJsonStr hnames, mapM_of_forall (g := fun r => (r.name, .string (r.read state)))]
  · rfl
  · intro r hr
    have hall := hclean r (mem_ordered.mp hr)
    rw [readBack, if_pos (by simpa using hall)]
    rfl

theorem clean_of_parse (hnames : ∀ name ∈ attrs.names, ∀ c ∈ name, Plain c) {json : Json}
    (h : parse (attrs.toJsonStr state) = some json) :
    ∀ r ∈ attrs.readers, ∀ c ∈ r.read state, Clean c := by
  intro r hr
  rw [parse_toJsonStr hnames] at h
  obtain ⟨ms, hms, -⟩ := Option.map_eq_some_iff.mp h
  have hsome := isSome_of_mapM hms r (mem_ordered.mpr hr)
  rw [Option.isSome_map, readBack] at hsome
  split at hsome
  next hall => simpa using hall
  next => nomatch hsome

theorem read_eq_some_iff
    (hagree : ∀ r ∈ attrs.readers, ∀ r' ∈ attrs.readers, r.name = r'.name →
      r.read state = r'.read state) {name val : Text} :
    attrs.read name state = some val ↔
      ∃ r ∈ attrs.readers, r.name = name ∧ r.read state = val := by
  rw [AttrSet.read, Option.map_eq_some_iff]
  constructor
  · rintro ⟨r, hfound, hval⟩
    have hname : r.name = name := by simpa using List.find?_some hfound
    exact ⟨r, List.mem_of_find?_eq_some hfound, hname, hval⟩
  · rintro ⟨r, hr, hname, hval⟩
    cases hfound : attrs.readers.find? (fun r => r.name = name) with
    | none => exact absurd (decide_eq_true hname) (List.find?_eq_none.mp hfound r hr)
    | some first =>
      have hfirst : first.name = name := by simpa using List.find?_some hfound
      refine ⟨first, rfl, ?_⟩
      rw [hagree first (List.mem_of_find?_eq_some hfound) r hr (hfirst.trans hname.symm), hval]

theorem plain_of_faithful (h : Faithful attrs state) :
    ∀ name ∈ attrs.names, ∀ c ∈ name, Plain c := by
  obtain ⟨ms, hparse, hms⟩ := h
  have hstrings : ∀ m ∈ ms, ∃ s, m.2 = .string s := by
    rintro ⟨name, json⟩ hm
    obtain ⟨val, -, hjson⟩ := (hms name json).mp hm
    exact ⟨val, hjson⟩
  have hkeys : ∀ r ∈ ordered attrs state, ∃ m ∈ ms, m.1 = r.name := by
    intro r hr
    obtain ⟨first, hfirst⟩ : ∃ first, attrs.readers.find? (fun r' => r'.name = r.name) =
        some first := Option.isSome_iff_exists.mp
      (List.find?_isSome.mpr ⟨r, mem_ordered.mp hr, decide_eq_true rfl⟩)
    refine ⟨_, (hms r.name (.string (first.read state))).mpr ⟨_, ?_, rfl⟩, rfl⟩
    rw [AttrSet.read, hfirst]
    rfl
  rw [toJsonStr_eq] at hparse
  have hplain := plain_of_parse (fun r _ => guarded_escaped (r.read state)) hparse hstrings hkeys
  intro name hname
  obtain ⟨r, hr, rfl⟩ := List.mem_map.mp hname
  exact hplain r (mem_ordered.mpr hr)

/-- The text of all attributes is faithful exactly when the names hold nothing that JSON
must escape, no value holds a control character but the newline, and readers of one
name agree. -/
theorem toJsonStr_faithful_iff (regs : List (Registration S)) (state : S) :
    Faithful (build regs) state ↔
      (∀ name ∈ (build regs).names, ∀ c ∈ name, Plain c) ∧
      (∀ r ∈ (build regs).readers, ∀ c ∈ r.read state, Clean c) ∧
      ∀ r ∈ (build regs).readers, ∀ r' ∈ (build regs).readers, r.name = r'.name →
        r.read state = r'.read state := by
  constructor
  · intro h
    have hnames := plain_of_faithful h
    obtain ⟨ms, hparse, hms⟩ := h
    have hclean := clean_of_parse hnames hparse
    refine ⟨hnames, hclean, fun r hr r' hr' hname => ?_⟩
    rw [parse_of_clean hnames hclean] at hparse
    obtain rfl := Json.object.inj (Option.some.inj hparse)
    have hval (r : AttrReader S) (hr : r ∈ (build regs).readers) :
        (build regs).read r.name state = some (r.read state) := by
      obtain ⟨val, hval, hjson⟩ := (hms r.name (.string (r.read state))).mp
        (List.mem_map_of_mem (mem_ordered.mpr hr))
      rw [hval, Json.string.inj hjson]
    have hboth := hval r hr
    rw [hname, hval r' hr'] at hboth
    exact (Option.some.inj hboth).symm
  · rintro ⟨hnames, hclean, hagree⟩
    refine ⟨_, parse_of_clean hnames hclean, fun name json => ?_⟩
    simp only [read_eq_some_iff hagree, List.mem_map, mem_ordered, Prod.mk.injEq]
    constructor
    · rintro ⟨r, hr, hname, hjson⟩
      exact ⟨r.read state, ⟨r, hr, hname, rfl⟩, hjson.symm⟩
    · rintro ⟨val, ⟨r, hr, hname, rfl⟩, hjson⟩
      exact ⟨r, hr, hname, hjson.symm⟩

theorem forall_of_all {α : Type} {p : Char → Prop} [DecidablePred p] {as : List α} {f : α → Text}
    (h : as.all fun a => (f a).all fun c => p c) : ∀ a ∈ as, ∀ c ∈ f a, p c := by
  intro a ha c hc
  exact of_decide_eq_true (List.all_eq_true.mp (List.all_eq_true.mp h a ha) c hc)

def showing (name : String) : Registration Text := .reader (.new id name.toList id)

theorem toJsonStr_faithful_iff_title :
    Faithful (build [showing "title", showing "path"]) "C:\\new\n\"x\"".toList := by
  refine (toJsonStr_faithful_iff [showing "title", showing "path"] _).mpr
    ⟨forall_of_all (f := id) (by decide), forall_of_all (by decide), fun r hr r' hr' _ => ?_⟩
  have hread (r : AttrReader Text) (hr : r ∈ (build [showing "title", showing "path"]).readers) :
      r.read = id := by
    obtain rfl | hr := List.mem_cons.mp hr
    · rfl
    · rw [List.mem_singleton.mp hr]
      rfl
  rw [hread r hr, hread r' hr']

theorem tab_not_faithful : ¬ Faithful (build [showing "title"]) "a\tb".toList := by
  rintro ⟨ms, hparse, -⟩
  have hclean := clean_of_parse (forall_of_all (by decide)) hparse _ List.mem_cons_self
  exact absurd (hclean '\t' (by decide)) (by decide)

theorem quote_not_faithful : ¬ Faithful (build [showing "ti\"tle"]) "a".toList := by
  intro h
  have hplain := plain_of_faithful h "ti\"tle".toList List.mem_cons_self
  exact absurd (hplain '"' (by decide)) (by decide)

def twice : List (Registration Text) :=
  [showing "title", .reader (.new id "title".toList fun _ => "b".toList)]

theorem twice_not_faithful : ¬ Faithful (build twice) "a".toList := by
  rintro ⟨ms, hparse, hms⟩
  rw [parse_of_clean (forall_of_all (by decide)) (forall_of_all (by decide))] at hparse
  obtain rfl := Json.object.inj (Option.some.inj hparse)
  have hsecond : AttrReader.new id "title".toList (fun _ => "b".toList) ∈
      ordered (build twice) "a".toList :=
    mem_ordered.mpr (List.mem_cons_of_mem _ List.mem_cons_self)
  obtain ⟨val, hval, hjson⟩ := (hms "title".toList (.string "b".toList)).mp
    (List.mem_map.mpr ⟨_, hsecond, rfl⟩)
  rw [← Json.string.inj hjson] at hval
  exact absurd hval (by decide)

/-- None of the three conditions can be left out. -/
theorem toJsonStr_not_faithful :
    ¬ Faithful (build [showing "title"]) "a\tb".toList ∧
    ¬ Faithful (build [showing "ti\"tle"]) "a".toList ∧
    ¬ Faithful (build twice) "a".toList :=
  ⟨tab_not_faithful, quote_not_faithful, twice_not_faithful⟩

end Pane.AttributeText
