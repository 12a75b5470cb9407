import Mathlib.Algebra.Order.BigOperators.Group.List
import Mathlib.Algebra.Order.Group.Nat
import Mathlib.Tactic.ByContra
import Pane.JsonText

namespace Pane.JsonKeys

open Pane.JsonText

section Spelling

/-- What may stand behind the backslash in an escape for a character. -/
def EscapeOf (e : Text) (c : Char) : Prop :=
  (∃ d, e = [d] ∧ shorthand d = some c) ∨ 5 ≤ e.length ∧ ∀ d ∈ e, d ≠ '"' ∧ d ≠ ':'

/-- The text, put between quotes, is read as the string. -/
inductive Spells : Text → Text → Prop
  | nil : Spells [] []
  | plain {c : Char} {w s : Text} (hc : Plain c) (h : Spells w s) : Spells (c :: w) (c :: s)
  | escape {e : Text} {c : Char} {w s : Text} (he : EscapeOf e c) (h : Spells w s) :
      Spells ('\\' :: (e ++ w)) (c :: s)

theorem hexDigits_eq_some {t rest : Text} {n : Nat} (h : hexDigits t = some (n, rest)) :
    ∃ ds, t = ds ++ rest ∧ 4 ≤ ds.length ∧ ∀ d ∈ ds, d ≠ '"' ∧ d ≠ ':' := by
  have hdigit {d : Char} {n : Nat} (hd : hexDigit d = some n) : d ≠ '"' ∧ d ≠ ':' := by
    constructor <;> rintro rfl <;> cases hd
  rcases t with _ | ⟨a, _ | ⟨b, _ | ⟨c, _ | ⟨d, t⟩⟩⟩⟩
  case cons.cons.cons.cons =>
    obtain ⟨_, ha, h⟩ := Option.bind_eq_some_iff.mp h
    obtain ⟨_, hb, h⟩ := Option.bind_eq_some_iff.mp h
    obtain ⟨_, hc, h⟩ := Option.bind_eq_some_iff.mp h
    obtain ⟨_, hd, h⟩ := Option.bind_eq_some_iff.mp h
    cases h
    refine ⟨[a, b, c, d], rfl, Nat.le_refl 4, ?_⟩
    simp only [List.forall_mem_cons]
    exact ⟨hdigit ha, hdigit hb, hdigit hc, hdigit hd, fun _ h => nomatch h⟩
  all_goals cases h

theorem unicode_eq_some {t rest : Text} {c : Char} (h : unicode t = some (c, rest)) :
    ∃ ds, t = ds ++ rest ∧ 4 ≤ ds.length ∧ ∀ d ∈ ds, d ≠ '"' ∧ d ≠ ':' := by
  obtain ⟨⟨high, t'⟩, hhigh, hread⟩ := Option.bind_eq_some_iff.mp h
  obtain ⟨ds, rfl, hlength, hds⟩ := hexDigits_eq_some hhigh
  dsimp only at hread
  split at hread
  · split at hread
    · obtain ⟨⟨low, t''⟩, hlow, hpair⟩ := Option.bind_eq_some_iff.mp hread
      obtain ⟨ds', rfl, -, hds'⟩ := hexDigits_eq_some hlow
      dsimp only at hpair
      split at hpair
      · obtain rfl := (Prod.mk.inj (Option.some.inj hpair)).2
        refine ⟨ds ++ '\\' :: 'u' :: ds', by simp, by simp; omega, ?_⟩
        simp only [List.forall_mem_append, List.forall_mem_cons]
        exact ⟨hds, by decide, by decide, hds'⟩
      · cases hpair
    · cases hread
  · split at hread
    · cases hread
    · cases hread
      exact ⟨ds, rfl, hlength, hds⟩

theorem escape_eq_some {t rest : Text} {c : Char} (h : escape t = some (c, rest)) :
    ∃ e, t = e ++ rest ∧ EscapeOf e c := by
  cases t with
  | nil => cases h
  | cons d t =>
    rw [escape] at h
    split at h
    next hd =>
      obtain ⟨ds, rfl, hlength, hds⟩ := unicode_eq_some h
      refine ⟨'u' :: ds, by rw [hd]; rfl, .inr ⟨Nat.succ_le_succ hlength, ?_⟩⟩
      exact List.forall_mem_cons.mpr ⟨by decide, hds⟩
    next =>
      obtain ⟨c', hc, hrest⟩ := Option.map_eq_some_iff.mp h
      cases hrest
      exact ⟨[d], rfl, .inl ⟨d, rfl, hc⟩⟩

theorem chars_eq_some {fuel : Nat} {t s rest : Text} (h : chars fuel t = some (s, rest)) :
    ∃ w, t = w ++ '"' :: rest ∧ Spells w s := by
  induction fuel generalizing t s with
  | zero => cases h
  | succ fuel ih =>
    cases t with
    | nil => cases h
    | cons c t =>
      rw [chars] at h
      split at h
      next hquote =>
        cases h
        exact ⟨[], by rw [hquote]; rfl, .nil⟩
      next hquote =>
        split at h
        next hbackslash =>
          obtain ⟨⟨d, t'⟩, hescape, h⟩ := Option.bind_eq_some_iff.mp h
          obtain ⟨⟨s', rest'⟩, hchars, h⟩ := Option.bind_eq_some_iff.mp h
          cases h
          obtain ⟨e, rfl, he⟩ := escape_eq_some hescape
          obtain ⟨w, rfl, hw⟩ := ih hchars
          exact ⟨'\\' :: (e ++ w), by rw [hbackslash]; simp, .escape he hw⟩
        next hbackslash =>
          split at h
          next => cases h
          next hcontrol =>
            obtain ⟨⟨s', rest'⟩, hchars, h⟩ := Option.bind_eq_some_iff.mp h
            cases h
            obtain ⟨w, rfl, hw⟩ := ih hchars
            exact ⟨c :: w, rfl, .plain ⟨hquote, hbackslash, Bool.eq_false_iff.mpr hcontrol⟩ hw⟩

/-- Every quote stands behind a backslash. -/
def Guarded (t : Text) : Prop := ∀ a b, t = a ++ '"' :: b → a.getLast? = some '\\'

theorem guarded_of_notMem {t : Text} (h : '"' ∉ t) : Guarded t := by
  rintro a b rfl
  exact absurd (List.mem_append_right a List.mem_cons_self) h

theorem guarded_quote : Guarded ['\\', '"'] := by
  intro a b h
  cases a with
  | nil => cases h
  | cons c a =>
    obtain ⟨rfl, h⟩ := List.cons.inj h
    cases a with
    | nil => rfl
    | cons d a =>
      obtain ⟨-, h⟩ := List.cons.inj h
      exact absurd h (by simp)

theorem quote_split {t t' a b : Text} (h : t ++ t' = a ++ '"' :: b) :
    (∃ u, t = a ++ '"' :: u ∧ b = u ++ t') ∨ ∃ a', a = t ++ a' ∧ t' = a' ++ '"' :: b := by
  obtain ⟨a', ha, ht'⟩ | ⟨c, ht, hc⟩ := List.append_eq_append_iff.mp h
  · exact .inr ⟨a', ha, ht'⟩
  · cases c with
    | nil => exact .inr ⟨[], by simpa using ht.symm, by simpa using hc.symm⟩
    | cons d u =>
      obtain ⟨rfl, hb⟩ := List.cons.inj hc
      exact .inl ⟨u, ht, hb⟩

theorem Guarded.append {t t' : Text} (h : Guarded t) (h' : Guarded t') : Guarded (t ++ t') := by
  intro a b hab
  obtain ⟨u, ht, -⟩ | ⟨a', rfl, ht'⟩ := quote_split hab
  · exact h a u ht
  · rw [List.getLast?_append, h' a' b ht']
    rfl

theorem guarded_escape {e : Text} {c : Char} (he : EscapeOf e c) : Guarded ('\\' :: e) := by
  obtain ⟨d, rfl, -⟩ | ⟨-, hds⟩ := he
  · by_cases hd : d = '"'
    · rw [hd]
      exact guarded_quote
    · exact guarded_of_notMem (by simp [Ne.symm hd])
  · refine guarded_of_notMem fun hmem => ?_
    obtain hd | hd := List.mem_cons.mp hmem
    · cases hd
    · exact (hds _ hd).1 rfl

theorem Spells.guarded {w s : Text} (h : Spells w s) : Guarded w := by
  induction h with
  | nil => exact guarded_of_notMem List.not_mem_nil
  | @plain c w s hc h ih =>
    exact (guarded_of_notMem (t := [c]) (by simpa using hc.1.symm)).append ih
  | @escape e c w s he h ih => exact (guarded_escape he).append ih

theorem Spells.forall_plain {w s : Text} (h : Spells w s) (hw : '\\' ∉ w) :
    ∀ c ∈ s, Plain c := by
  induction h with
  | nil => exact fun c hc => absurd hc List.not_mem_nil
  | plain hc h ih => exact List.forall_mem_cons.mpr ⟨hc, ih fun hmem => hw (.tail _ hmem)⟩
  | escape he h ih => exact absurd List.mem_cons_self hw

theorem Spells.getLast_colon {w s : Text} (h : Spells w s) (hw : w.getLast? = some ':') :
    s.getLast? = some ':' := by
  induction h with
  | nil => exact hw
  | @plain c w s hc h ih =>
    cases h with
    | nil => exact hw
    | plain _ _ => exact ih hw
    | escape _ _ => exact ih hw
  | @escape e c w s he h ih =>
    by_cases hnil : w = []
    · subst hnil
      rw [List.append_nil] at hw
      have hmem := List.mem_of_getLast? hw
      obtain ⟨d, rfl, hd⟩ | ⟨-, hds⟩ := he
      · simp at hmem
        rw [← hmem] at hd
        cases hd
      · obtain hd | hd := List.mem_cons.mp hmem
        · cases hd
        · exact absurd rfl (hds _ hd).2
    · rw [← List.cons_append, List.getLast?_append_of_ne_nil _ hnil] at hw
      have hs := ih hw
      have hne : s ≠ [] := by
        rintro rfl
        cases hs
      rw [← List.singleton_append, List.getLast?_append_of_ne_nil _ hne, hs]

end Spelling

section Costs

def weight (c : Char) : Nat := if Plain c then 1 else 2

/-- The length of a text, where what has to be escaped counts twice. -/
def cost : Text → Nat
  | [] => 0
  | c :: t => weight c + cost t

@[simp] theorem cost_nil : cost [] = 0 := rfl

@[simp] theorem cost_cons (c : Char) (t : Text) : cost (c :: t) = weight c + cost t := rfl

@[simp] theorem cost_append (t t' : Text) : cost (t ++ t') = cost t + cost t' := by
  induction t with
  | nil => simp
  | cons c t ih => rw [List.cons_append, cost_cons, cost_cons, ih, Nat.add_assoc]

theorem weight_bounds (c : Char) : 1 ≤ weight c ∧ weight c ≤ 2 := by
  rw [weight]
  split <;> omega

theorem length_le_cost (t : Text) : t.length ≤ cost t := by
  induction t with
  | nil => exact Nat.le_refl 0
  | cons c t ih =>
    have := (weight_bounds c).1
    rw [List.length_cons, cost_cons]
    omega

theorem cost_mono {t t' : Text} (h : t <:+: t') : cost t ≤ cost t' := by
  obtain ⟨a, b, rfl⟩ := h
  rw [cost_append, cost_append]
  omega

theorem cost_escape {e : Text} {c : Char} (he : EscapeOf e c) :
    weight c < cost ('\\' :: e) ∧
      ('"' ∈ e ∨ c = '\\' → weight c + 2 ≤ cost ('\\' :: e)) := by
  have hslash : weight '\\' = 2 := rfl
  have hc := weight_bounds c
  rw [cost_cons, hslash]
  obtain ⟨d, rfl, hd⟩ | ⟨hlength, hds⟩ := he
  · rw [cost_cons, cost_nil]
    have hweight := weight_bounds d
    refine ⟨by omega, ?_⟩
    intro h
    suffices hd2 : weight d = 2 by omega
    obtain h | rfl := h
    · rw [← List.mem_singleton.mp h]
      rfl
    · have hbackslash : d = '\\' := by
        rw [shorthand.eq_def] at hd
        split at hd <;> simp_all
      rw [hbackslash]
      rfl
  · have := length_le_cost e
    exact ⟨by omega, fun _ => by omega⟩

theorem Spells.costs {w s : Text} (h : Spells w s) :
    cost s ≤ cost w ∧ ('\\' ∈ w → cost s < cost w) ∧
      ('"' ∈ w ∨ '\\' ∈ s → cost s + 2 ≤ cost w) := by
  induction h with
  | nil => simp
  | @plain c w s hc h ih =>
    obtain ⟨hquote, hbackslash, -⟩ := hc
    simp only [cost_cons, List.mem_cons, hquote.symm, hbackslash.symm, false_or]
    exact ⟨by omega, fun hw => by have := ih.2.1 hw; omega,
      fun hs => by have := ih.2.2 hs; omega⟩
  | @escape e c w s he h ih =>
    obtain ⟨hcost, hcost'⟩ := cost_escape he
    rw [← List.cons_append, cost_append, cost_cons c]
    refine ⟨by omega, fun _ => by omega, ?_⟩
    intro hs
    by_cases hnow : '"' ∈ e ∨ c = '\\'
    · have := hcost' hnow
      omega
    · have hlater : '"' ∈ w ∨ '\\' ∈ s := by
        simp only [List.cons_append, List.mem_cons, List.mem_append] at hs
        grind
      have := ih.2.2 hlater
      omega

end Costs

section Positions

/-- A key may stand behind the text, since neither a colon nor a backslash is its end. -/
def Opens (front : Text) : Prop := ∃ x, front.getLast? = some x ∧ x ≠ ':' ∧ x ≠ '\\'

def KeyIn (t key : Text) : Prop :=
  ∃ front w rest, t = front ++ '"' :: (w ++ '"' :: rest) ∧ Opens front ∧ Spells w key

theorem opens_append {a front : Text} (hne : front ≠ []) : Opens (a ++ front) ↔ Opens front := by
  rw [Opens, Opens, List.getLast?_append_of_ne_nil a hne]

theorem Opens.ne_nil {front : Text} (h : Opens front) : front ≠ [] := by
  rintro rfl
  obtain ⟨x, hx, -⟩ := h
  cases hx

theorem KeyIn.of_suffix {t t' key : Text} (h : KeyIn t key) (hsuffix : t <:+ t') :
    KeyIn t' key := by
  obtain ⟨front, w, rest, rfl, hopens, hw⟩ := h
  obtain ⟨a, rfl⟩ := hsuffix
  refine ⟨a ++ front, w, rest, by rw [List.append_assoc], ?_, hw⟩
  exact (opens_append hopens.ne_nil).mpr hopens

theorem opens_of_skip {x : Char} {t t' : Text} (hx : Opens [x]) (h : skip t = '"' :: t') :
    ∃ front, x :: t = front ++ '"' :: t' ∧ Opens front := by
  induction t generalizing x with
  | nil => cases h
  | cons c t ih =>
    cases hspace : isSpace c with
    | false =>
      rw [skip_token hspace] at h
      cases h
      exact ⟨[x], rfl, hx⟩
    | true =>
      have hc : Opens [c] := by
        refine ⟨c, rfl, ?_, ?_⟩ <;> rintro rfl <;> cases hspace
      rw [skip, List.dropWhile_cons_of_pos hspace] at h
      obtain ⟨front, ht, hopens⟩ := ih hc h
      refine ⟨x :: front, by rw [ht, List.cons_append], ?_⟩
      exact (opens_append (a := [x]) hopens.ne_nil).mpr hopens

theorem opens_brace : Opens ['{'] := ⟨'{', rfl, by decide, by decide⟩

theorem opens_comma : Opens [','] := ⟨',', rfl, by decide, by decide⟩

theorem skip_suffix (t : Text) : skip t <:+ t := List.dropWhile_suffix isSpace

theorem stringBody_eq_some {t s rest : Text} (h : stringBody t = some (s, rest)) :
    ∃ w, t = w ++ '"' :: rest ∧ Spells w s := chars_eq_some h

theorem suffix_of_stringBody {t s rest : Text} (h : stringBody t = some (s, rest)) :
    rest <:+ t := by
  obtain ⟨w, rfl, -⟩ := stringBody_eq_some h
  exact ⟨w ++ ['"'], by simp⟩

theorem suffix_of_value {fuel : Nat} {t s rest : Text}
    (h : value fuel t = some (.string s, rest)) : rest <:+ t := by
  cases fuel with
  | zero => cases h
  | succ fuel =>
    rw [value] at h
    split at h
    · cases h
    next c t' hskip =>
      have hsuffix : t' <:+ t := ((List.suffix_cons c t').trans (hskip ▸ skip_suffix t))
      split at h
      · obtain ⟨⟨s', rest'⟩, hbody, heq⟩ := Option.map_eq_some_iff.mp h
        cases heq
        exact (suffix_of_stringBody hbody).trans hsuffix
      · repeat' split at h
        all_goals simp [keyword] at h

theorem members_eq_some {fuel : Nat} {t rest : Text} {ms : List (Text × Json)}
    (h : members (fuel + 1) t = some (ms, rest)) :
    ∃ key v t₁ t₂ t₃, skip t = '"' :: t₁ ∧ stringBody t₁ = some (key, t₂) ∧
      value fuel (skip t₂).tail = some (v, t₃) ∧
      ((∃ t₄, skip t₃ = '}' :: t₄ ∧ ms = [(key, v)] ∧ rest = t₄) ∨
        ∃ t₄ ms', skip t₃ = ',' :: t₄ ∧ members fuel t₄ = some (ms', rest) ∧
          ms = (key, v) :: ms') := by
  rw [members] at h
  split at h
  · cases h
  next c t₁ hskip =>
    split at h
    next hquote =>
      subst hquote
      obtain ⟨⟨key, t₂⟩, hkey, hcolon⟩ := Option.bind_eq_some_iff.mp h
      dsimp only at hcolon
      split at hcolon
      · obtain ⟨⟨v, t₃⟩, hvalue, hend⟩ := Option.bind_eq_some_iff.mp hcolon
        refine ⟨key, v, t₁, t₂, t₃, hskip, hkey, hvalue, ?_⟩
        dsimp only at hend
        split at hend
        · cases hend
        next d t₄ hskip' =>
          split at hend
          next hbrace =>
            cases hend
            exact .inl ⟨_, hbrace ▸ hskip', rfl, rfl⟩
          next =>
            split at hend
            next hcomma =>
              obtain ⟨⟨ms', rest'⟩, hmembers, heq⟩ := Option.bind_eq_some_iff.mp hend
              cases heq
              exact .inr ⟨t₄, ms', hcomma ▸ hskip', hmembers, rfl⟩
            next => cases hend
      · cases hcolon
    next => cases h

theorem keyIn_of_members {fuel : Nat} {t rest : Text} {ms : List (Text × Json)} {x : Char}
    (hx : Opens [x]) (h : members fuel t = some (ms, rest))
    (hms : ∀ m ∈ ms, ∃ s, m.2 = .string s) : ∀ m ∈ ms, KeyIn (x :: t) m.1 := by
  induction fuel generalizing t ms x with
  | zero => cases h
  | succ fuel ih =>
    obtain ⟨key, v, t₁, t₂, t₃, hskip, hkey, hvalue, hend⟩ := members_eq_some h
    have hfirst : KeyIn (x :: t) key := by
      obtain ⟨front, ht, hopens⟩ := opens_of_skip hx hskip
      obtain ⟨w, rfl, hw⟩ := stringBody_eq_some hkey
      exact ⟨front, w, t₂, ht, hopens, hw⟩
    obtain ⟨-, -, rfl, -⟩ | ⟨t₄, ms', hskip', hrest, rfl⟩ := hend
    · exact List.forall_mem_singleton.mpr hfirst
    · obtain ⟨⟨s, rfl⟩, hms'⟩ := List.forall_mem_cons.mp hms
      have hbehind : ',' :: t₄ <:+ (skip t₂).tail :=
        (hskip' ▸ skip_suffix t₃).trans (suffix_of_value hvalue)
      have hafter : ',' :: t₄ <:+ t₁ :=
        ((hbehind.trans (List.tail_suffix _)).trans (skip_suffix t₂)).trans
          (suffix_of_stringBody hkey)
      have hwhole : ',' :: t₄ <:+ x :: t :=
        ((hafter.trans (List.suffix_cons '"' t₁)).trans (hskip ▸ skip_suffix t)).trans
          (List.suffix_cons x t)
      refine List.forall_mem_cons.mpr ⟨hfirst, fun m hm => ?_⟩
      exact (ih opens_comma hrest hms' m hm).of_suffix hwhole

theorem keyIn_of_parse {t : Text} {ms : List (Text × Json)}
    (h : parse ('{' :: t) = some (.object ms)) (hms : ∀ m ∈ ms, ∃ s, m.2 = .string s) :
    ∀ m ∈ ms, KeyIn ('{' :: t) m.1 := by
  obtain ⟨⟨v, rest⟩, hvalue, hend⟩ := Option.bind_eq_some_iff.mp h
  dsimp only at hend
  split at hend
  · cases hend
    rw [value, skip_token rfl] at hvalue
    dsimp only at hvalue
    rw [if_neg (by decide), if_pos rfl] at hvalue
    split at hvalue
    · cases hvalue
      exact fun m hm => absurd hm List.not_mem_nil
    · obtain ⟨⟨ms', rest'⟩, hmembers, heq⟩ := Option.map_eq_some_iff.mp hvalue
      cases heq
      exact keyIn_of_members opens_brace hmembers hms
  · cases hend

end Positions

section Members

variable {α : Type} {key raw : α → Text}

def closing (key raw : α → Text) : List α → Text
  | [] => ['}']
  | a :: as => ',' :: (memberText (key a) (raw a) ++ closing key raw as)

theorem joined_eq (a : α) (as : List α) :
    [','].intercalate ((a :: as).map fun a => memberText (key a) (raw a)) ++ ['}'] =
      memberText (key a) (raw a) ++ closing key raw as := by
  induction as generalizing a with
  | nil => rw [List.map_singleton, List.intercalate_singleton, closing]
  | cons b bs ih =>
    rw [List.map_cons, List.map_cons, List.intercalate_cons_cons, List.append_assoc,
      List.append_assoc, ← List.map_cons (f := fun a => memberText (key a) (raw a)), ih b,
      closing, List.singleton_append]

/-- The text lies in the key, or runs from the key over its closing quote, which a
backslash at the end of the key takes for itself, to the quote that opens the value. -/
def Within (key w : Text) : Prop :=
  w <:+: key ∨ ∃ u, u <:+ key ∧ u.getLast? = some '\\' ∧ w = u ++ ['"', ':']

theorem within_of_suffix {key u w b t : Text} (hu : u <:+ key) (hw : Guarded w)
    (h : u ++ '"' :: ':' :: '"' :: t = w ++ '"' :: b) : Within key w := by
  obtain ⟨v, hv, -⟩ | ⟨w₁, rfl, hrest⟩ := quote_split h
  · exact .inl (((hv ▸ List.prefix_append w _).isInfix).trans hu.isInfix)
  rcases w₁ with _ | ⟨c, _ | ⟨d, _ | ⟨e, w₂⟩⟩⟩ <;>
    simp only [List.nil_append, List.cons_append, List.cons.injEq] at hrest
  · exact .inl (by simpa using hu.isInfix)
  · exact absurd hrest.2.1 (by decide)
  · obtain ⟨rfl, rfl, -⟩ := hrest
    exact .inr ⟨u, hu, hw u [':'] rfl, rfl⟩
  · obtain ⟨rfl, rfl, rfl, -⟩ := hrest
    -- The quote that opens the value stands behind the colon.
    have hcolon := hw (u ++ ['"', ':']) w₂ (by simp)
    rw [List.getLast?_append] at hcolon
    exact absurd (Option.some.inj hcolon) (by decide)

theorem eq_singleton_of_quote {c : Char} {t w b : Text} (hquote : c ≠ '"') (hc : c ≠ '\\')
    (hw : Guarded w) (h : c :: '"' :: t = w ++ '"' :: b) : w = [c] := by
  rcases w with _ | ⟨d, _ | ⟨e, w⟩⟩ <;>
    simp only [List.nil_append, List.cons_append, List.cons.injEq] at h
  · exact absurd h.1 hquote
  · rw [h.1]
  · obtain ⟨rfl, rfl, -⟩ := h
    exact absurd (Option.some.inj (hw [c] w rfl)) hc

/-- A string that holds an escape and opens in a member lies within its key: the value
holds no quote that could open or close it. -/
theorem within_or_later {x : Char} {k r front w b t : Text} (hr : Guarded r)
    (htext : x :: (memberText k r ++ t) = front ++ '"' :: (w ++ '"' :: b)) (hopens : Opens front)
    (hw : Guarded w) (hescape : '\\' ∈ w) :
    Within k w ∨ t = w ++ '"' :: b ∨
      ∃ later, t = later ++ '"' :: (w ++ '"' :: b) ∧ (later ≠ [] → Opens later) := by
  have hmember : memberText k r ++ t = '"' :: (k ++ '"' :: ':' :: '"' :: (r ++ '"' :: t)) := by
    simp [memberText]
  rw [hmember] at htext
  rcases front with _ | ⟨c, _ | ⟨d, front₁⟩⟩ <;>
    simp only [List.nil_append, List.cons_append, List.cons.injEq] at htext
  · exact absurd rfl hopens.ne_nil
  · exact .inl (within_of_suffix (List.suffix_refl k) hw htext.2.2)
  obtain ⟨rfl, rfl, htext⟩ := htext
  obtain ⟨u, hu, hrest⟩ | ⟨front₂, rfl, hrest⟩ := quote_split htext
  · have hsuffix : u <:+ k := ⟨front₁ ++ ['"'], by rw [hu]; simp⟩
    exact .inl (within_of_suffix hsuffix hw hrest.symm)
  have hlast (before : Text) {rest : Text} (hne : rest ≠ [])
      (hfront : x :: '"' :: (k ++ front₂) = before ++ rest) : Opens rest := by
    rw [hfront] at hopens
    exact (opens_append hne).mp hopens
  rcases front₂ with _ | ⟨c, _ | ⟨d, _ | ⟨e, front₃⟩⟩⟩ <;>
    simp only [List.nil_append, List.cons_append, List.cons.injEq] at hrest
  · rw [eq_singleton_of_quote (by decide) (by decide) hw hrest.2] at hescape
    exact absurd hescape (by decide)
  · exact absurd hrest.2.1 (by decide)
  · obtain ⟨rfl, rfl, -⟩ := hrest
    have hcolon : Opens [':'] := hlast (x :: '"' :: (k ++ ['"'])) (by simp) (by simp)
    obtain ⟨y, hy, hcolon, -⟩ := hcolon
    exact absurd (Option.some.inj hy).symm hcolon
  obtain ⟨rfl, rfl, rfl, hrest⟩ := hrest
  obtain ⟨u, rfl, -⟩ | ⟨front₄, rfl, hbehind⟩ := quote_split hrest
  · have hbackslash := hr front₃ u rfl
    have hne : front₃ ≠ [] := by
      rintro rfl
      cases hbackslash
    obtain ⟨y, hy, -, hy'⟩ := hlast (x :: '"' :: (k ++ ['"', ':', '"'])) hne (by simp)
    exact absurd (Option.some.inj (hy.symm.trans hbackslash)) hy'
  · rcases front₄ with _ | ⟨c, later⟩ <;>
      simp only [List.nil_append, List.cons_append, List.cons.injEq] at hbehind
    · exact .inr (.inl hbehind.2)
    · refine .inr (.inr ⟨later, hbehind.2, fun hne => ?_⟩)
      exact hlast (x :: '"' :: (k ++ '"' :: ':' :: '"' :: (r ++ [c]))) hne (by simp)

theorem closing_nil_ne {a b : Text} : closing key raw [] ≠ a ++ '"' :: b := by
  intro h
  have hmem : '"' ∈ closing key raw [] := h ▸ List.mem_append_right a List.mem_cons_self
  exact absurd (List.mem_singleton.mp hmem) (by decide)

theorem exists_within {x : Char} {a : α} {as : List α} {front w b : Text}
    (hraw : ∀ d ∈ a :: as, Guarded (raw d))
    (htext : x :: (memberText (key a) (raw a) ++ closing key raw as) =
      front ++ '"' :: (w ++ '"' :: b))
    (hopens : Opens front) (hw : Guarded w) (hescape : '\\' ∈ w) :
    ∃ d ∈ a :: as, Within (key d) w := by
  induction as generalizing x a front with
  | nil =>
    obtain h | h | ⟨later, h, -⟩ := within_or_later (hraw a List.mem_cons_self) htext hopens hw
      hescape
    · exact ⟨a, List.mem_cons_self, h⟩
    · exact absurd h closing_nil_ne
    · exact absurd h closing_nil_ne
  | cons d ds ih =>
    obtain h | h | ⟨later, h, hlater⟩ := within_or_later (hraw a List.mem_cons_self) htext hopens
      hw hescape
    · exact ⟨a, List.mem_cons_self, h⟩
    · rw [eq_singleton_of_quote (by decide) (by decide) hw h] at hescape
      exact absurd hescape (by decide)
    · have hne : later ≠ [] := by
        rintro rfl
        exact absurd (List.cons.inj h).1 (by decide)
      obtain ⟨e, he, hwithin⟩ := ih (fun e he => hraw e (.tail a he)) h (hlater hne)
      exact ⟨e, .tail a he, hwithin⟩

/-- Of a key that holds something to be escaped, some key of the list is larger. -/
theorem exists_larger {as : List α}
    (hkeys : ∀ a ∈ as, (∃ c ∈ key a, ¬ Plain c) →
      ∃ w, Spells w (key a) ∧ '\\' ∈ w ∧ ∃ b ∈ as, Within (key b) w)
    {a : α} (ha : a ∈ as) (hplain : ∃ c ∈ key a, ¬ Plain c) :
    ∃ b ∈ as, (∃ c ∈ key b, ¬ Plain c) ∧ cost (key a) < cost (key b) := by
  have hbackslash : ¬ Plain '\\' := by decide
  obtain ⟨w, hw, hescape, b, hb, hinfix | ⟨u, hu, hlast, rfl⟩⟩ := hkeys a ha hplain
  · refine ⟨b, hb, ⟨_, hinfix.subset hescape, hbackslash⟩, ?_⟩
    exact Nat.lt_of_lt_of_le (hw.costs.2.1 hescape) (cost_mono hinfix)
  -- The key of `b` ends in a backslash, so its own text is no such overrun.
  have hmem : '\\' ∈ key b := hu.subset (List.mem_of_getLast? hlast)
  have hend : (key b).getLast? = some '\\' := by
    obtain ⟨v, hv⟩ := hu
    rw [← hv, List.getLast?_append, hlast]
    rfl
  obtain ⟨w', hw', hescape', d, hd, hinfix | ⟨u', -, -, rfl⟩⟩ := hkeys b hb ⟨_, hmem, hbackslash⟩
  · refine ⟨d, hd, ⟨_, hinfix.subset hescape', hbackslash⟩, ?_⟩
    have hquote : cost (key a) + 2 ≤ cost (u ++ ['"', ':']) := hw.costs.2.2 (.inl (by simp))
    have hsuffix : cost u ≤ cost (key b) := cost_mono hu.isInfix
    have hlarger : cost (key b) + 2 ≤ cost w' := hw'.costs.2.2 (.inr hmem)
    have hle : cost w' ≤ cost (key d) := cost_mono hinfix
    have htail : cost ['"', ':'] = 3 := rfl
    rw [cost_append, htail] at hquote
    omega
  · have hcolon := hw'.getLast_colon (by rw [List.getLast?_append]; rfl)
    rw [hend] at hcolon
    exact absurd (Option.some.inj hcolon) (by decide)

theorem forall_plain_of_within {as : List α}
    (hkeys : ∀ a ∈ as, (∃ c ∈ key a, ¬ Plain c) →
      ∃ w, Spells w (key a) ∧ '\\' ∈ w ∧ ∃ b ∈ as, Within (key b) w) :
    ∀ a ∈ as, ∀ c ∈ key a, Plain c := by
  intro a ha c hc
  by_contra hplain
  have hunbounded (n : Nat) : ∃ b ∈ as, (∃ c ∈ key b, ¬ Plain c) ∧ n ≤ cost (key b) := by
    induction n with
    | zero => exact ⟨a, ha, ⟨c, hc, hplain⟩, Nat.zero_le _⟩
    | succ n ih =>
      obtain ⟨b, hb, hplain, hn⟩ := ih
      obtain ⟨d, hd, hplain, hlt⟩ := exists_larger hkeys hb hplain
      exact ⟨d, hd, hplain, Nat.lt_of_le_of_lt hn hlt⟩
  obtain ⟨b, hb, -, hle⟩ := hunbounded ((as.map fun a => cost (key a)).sum + 1)
  have hsum := List.single_le_sum (fun _ _ => Nat.zero_le _) _
    (List.mem_map_of_mem (f := fun a => cost (key a)) hb)
  omega

/-- If each of the keys that were written is a key of the object that is read, nothing
in them had to be escaped. -/
theorem plain_of_parse {as : List α} (hraw : ∀ a ∈ as, Guarded (raw a))
    {ms : List (Text × Json)}
    (hparse : parse ('{' :: ([','].intercalate
      (as.map fun a => memberText (key a) (raw a)) ++ ['}'])) = some (.object ms))
    (hms : ∀ m ∈ ms, ∃ s, m.2 = .string s) (hkeys : ∀ a ∈ as, ∃ m ∈ ms, m.1 = key a) :
    ∀ a ∈ as, ∀ c ∈ key a, Plain c := by
  cases as with
  | nil => exact fun a ha => absurd ha List.not_mem_nil
  | cons first as =>
    rw [joined_eq] at hparse
    refine forall_plain_of_within fun a ha hplain => ?_
    obtain ⟨m, hm, hkey⟩ := hkeys a ha
    obtain ⟨front, w, rest, htext, hopens, hw⟩ := keyIn_of_parse hparse hms m hm
    rw [hkey] at hw
    have hescape : '\\' ∈ w := by
      by_contra hnone
      obtain ⟨c, hc, hc'⟩ := hplain
      exact hc' (hw.forall_plain hnone c hc)
    exact ⟨w, hw, hescape, exists_within hraw htext hopens hw.guarded hescape⟩

end Members

end Pane.JsonKeys
