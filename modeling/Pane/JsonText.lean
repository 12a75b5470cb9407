import Mathlib.Data.List.Basic

namespace Pane.JsonText

abbrev Text := List Char

inductive Json
  | null
  | bool (b : Bool)
  | number (text : Text)
  | string (s : Text)
  | array (elements : List Json)
  | object (members : List (Text × Json))

def isSpace (c : Char) : Bool := c = ' ' || c = '\t' || c = '\n' || c = '\r'

def skip (t : Text) : Text := t.dropWhile isSpace

section Strings

def hexDigit (c : Char) : Option Nat :=
  if '0' ≤ c ∧ c ≤ '9' then some (c.toNat - '0'.toNat)
  else if 'a' ≤ c ∧ c ≤ 'f' then some (c.toNat - 'a'.toNat + 10)
  else if 'A' ≤ c ∧ c ≤ 'F' then some (c.toNat - 'A'.toNat + 10)
  else none

def hexDigits : Text → Option (Nat × Text)
  | a :: b :: c :: d :: t => do
    let a ← hexDigit a
    let b ← hexDigit b
    let c ← hexDigit c
    let d ← hexDigit d
    return (((a * 16 + b) * 16 + c) * 16 + d, t)
  | _ => none

def unicode (t : Text) : Option (Char × Text) := do
  let (high, t) ← hexDigits t
  if 0xD800 ≤ high ∧ high < 0xDC00 then
    match t with
    | '\\' :: 'u' :: t => do
      let (low, t) ← hexDigits t
      if 0xDC00 ≤ low ∧ low < 0xE000 then
        return (Char.ofNat (0x10000 + (high - 0xD800) * 0x400 + (low - 0xDC00)), t)
      else none
    | _ => none
  else if 0xDC00 ≤ high ∧ high < 0xE000 then none
  else return (Char.ofNat high, t)

def shorthand : Char → Option Char
  | '"' => some '"'
  | '\\' => some '\\'
  | '/' => some '/'
  | 'b' => some (Char.ofNat 8)
  | 'f' => some (Char.ofNat 12)
  | 'n' => some '\n'
  | 'r' => some '\r'
  | 't' => some '\t'
  | _ => none

def escape : Text → Option (Char × Text)
  | [] => none
  | c :: t => if c = 'u' then unicode t else (shorthand c).map fun d => (d, t)

def isControl (c : Char) : Bool := c.toNat < 0x20

def chars : Nat → Text → Option (Text × Text)
  | 0, _ => none
  | _ + 1, [] => none
  | fuel + 1, c :: t =>
    if c = '"' then some ([], t)
    else if c = '\\' then do
      let (d, t) ← escape t
      let (s, rest) ← chars fuel t
      return (d :: s, rest)
    else if isControl c then none
    else do
      let (s, rest) ← chars fuel t
      return (c :: s, rest)

def stringBody (t : Text) : Option (Text × Text) := chars (t.length + 1) t

end Strings

section Numbers

def digits (t : Text) : Option (Text × Text) :=
  if (t.takeWhile Char.isDigit).isEmpty then none
  else some (t.takeWhile Char.isDigit, t.dropWhile Char.isDigit)

def integer : Text → Option (Text × Text)
  | '0' :: t => some (['0'], t)
  | t => digits t

def optionally (starts : Char → Bool) (part : Text → Option (Text × Text)) (t : Text) :
    Option (Text × Text) :=
  match t with
  | c :: t' => if starts c then (part t').map fun p => (c :: p.1, p.2) else some ([], c :: t')
  | [] => some ([], [])

def exponent (t : Text) : Option (Text × Text) := do
  let (sign, t) ← optionally (fun c => c = '+' || c = '-') (fun t => some ([], t)) t
  let (ds, t) ← digits t
  return (sign ++ ds, t)

def number (t : Text) : Option (Text × Text) := do
  let (sign, t) ← optionally (· = '-') (fun t => some ([], t)) t
  let (int, t) ← integer t
  let (frac, t) ← optionally (· = '.') digits t
  let (exp, t) ← optionally (fun c => c = 'e' || c = 'E') exponent t
  return (sign ++ int ++ frac ++ exp, t)

end Numbers

def keyword (word : Text) (result : Json) (t : Text) : Option (Json × Text) :=
  if word <+: t then some (result, t.drop word.length) else none

mutual

def value : Nat → Text → Option (Json × Text)
  | 0, _ => none
  | fuel + 1, t =>
    match skip t with
    | [] => none
    | c :: t =>
      if c = '"' then (stringBody t).map fun p => (.string p.1, p.2)
      else if c = '{' then
        if (skip t).head? = some '}' then some (.object [], (skip t).tail)
        else (members fuel t).map fun p => (.object p.1, p.2)
      else if c = '[' then
        if (skip t).head? = some ']' then some (.array [], (skip t).tail)
        else (elements fuel t).map fun p => (.array p.1, p.2)
      else if c = 'n' then keyword ['u', 'l', 'l'] .null t
      else if c = 't' then keyword ['r', 'u', 'e'] (.bool true) t
      else if c = 'f' then keyword ['a', 'l', 's', 'e'] (.bool false) t
      else (number (c :: t)).map fun p => (.number p.1, p.2)

def members : Nat → Text → Option (List (Text × Json) × Text)
  | 0, _ => none
  | fuel + 1, t =>
    match skip t with
    | [] => none
    | c :: t =>
      if c = '"' then do
        let (key, t) ← stringBody t
        if (skip t).head? = some ':' then do
          let (v, t) ← value fuel (skip t).tail
          match skip t with
          | [] => none
          | c :: t =>
            if c = '}' then return ([(key, v)], t)
            else if c = ',' then do
              let (ms, t) ← members fuel t
              return ((key, v) :: ms, t)
            else none
        else none
      else none

def elements : Nat → Text → Option (List Json × Text)
  | 0, _ => none
  | fuel + 1, t => do
    let (v, t) ← value fuel t
    match skip t with
    | [] => none
    | c :: t =>
      if c = ']' then return ([v], t)
      else if c = ',' then do
        let (vs, t) ← elements fuel t
        return (v :: vs, t)
      else none

end

def parse (t : Text) : Option Json := do
  let (v, rest) ← value (t.length + 1) t
  if skip rest = [] then return v else none

section Reading

def Plain (c : Char) : Prop := c ≠ '"' ∧ c ≠ '\\' ∧ isControl c = false

instance : DecidablePred Plain := fun _ => inferInstanceAs (Decidable (_ ∧ _ ∧ _))

def Encodes (w : Text) (c : Char) : Prop :=
  w = [c] ∧ Plain c ∨ ∃ e, w = ['\\', e] ∧ e ≠ 'u' ∧ shorthand e = some c

theorem chars_cons {w : Text} {c : Char} (h : Encodes w c) (fuel : Nat) (t : Text) :
    chars (fuel + 1) (w ++ t) = (chars fuel t).map fun p => (c :: p.1, p.2) := by
  obtain ⟨rfl, hquote, hbackslash, hcontrol⟩ | ⟨e, rfl, hu, he⟩ := h
  · rw [List.singleton_append, chars, if_neg hquote, if_neg hbackslash, hcontrol]
    cases chars fuel t <;> rfl
  · have hread : escape (e :: t) = some (c, t) := by
      rw [escape, if_neg hu, he]
      rfl
    rw [List.cons_append, List.singleton_append, chars, if_neg (by decide), if_pos rfl, hread]
    show (do let (s, rest) ← chars fuel t; return (c :: s, rest)) = _
    cases chars fuel t <;> rfl

theorem chars_encoded {enc : Char → Text} {s : Text} (h : ∀ c ∈ s, Encodes (enc c) c) {fuel : Nat}
    (hfuel : s.length < fuel) (t : Text) :
    chars fuel (s.flatMap enc ++ '"' :: t) = some (s, t) := by
  induction s generalizing fuel with
  | nil =>
    obtain ⟨fuel, rfl⟩ := Nat.exists_eq_succ_of_ne_zero (Nat.ne_of_gt hfuel)
    rfl
  | cons c s ih =>
    obtain ⟨fuel, rfl⟩ := Nat.exists_eq_succ_of_ne_zero (Nat.ne_zero_of_lt hfuel)
    rw [List.flatMap_cons, List.append_assoc, chars_cons (h c List.mem_cons_self),
      ih (fun d hd => h d (List.mem_cons_of_mem c hd)) (by simpa using hfuel)]
    rfl

theorem chars_control {enc : Char → Text} {s : Text}
    (h : ∀ c ∈ s, Encodes (enc c) c ∨ enc c = [c] ∧ isControl c = true)
    (hcontrol : ∃ c ∈ s, enc c = [c] ∧ isControl c = true) (fuel : Nat) (t : Text) :
    chars fuel (s.flatMap enc ++ t) = none := by
  induction s generalizing fuel with
  | nil =>
    obtain ⟨c, hc, -⟩ := hcontrol
    exact absurd hc List.not_mem_nil
  | cons c s ih =>
    cases fuel with
    | zero => rfl
    | succ fuel =>
      rw [List.flatMap_cons, List.append_assoc]
      by_cases hc : enc c = [c] ∧ isControl c = true
      · have hquote : c ≠ '"' := fun he => absurd (he ▸ hc.2) (by decide)
        have hbackslash : c ≠ '\\' := fun he => absurd (he ▸ hc.2) (by decide)
        rw [hc.1, List.singleton_append, chars, if_neg hquote, if_neg hbackslash, if_pos hc.2]
      · obtain ⟨d, hd, hbad⟩ := hcontrol
        have hd : d ∈ s := by
          obtain rfl | hd := List.mem_cons.mp hd
          · exact absurd hbad hc
          · exact hd
        rw [chars_cons ((h c List.mem_cons_self).resolve_right hc),
          ih (fun d hd => h d (List.mem_cons_of_mem c hd)) ⟨d, hd, hbad⟩]
        rfl

def ReadsAs (raw : Text) (val : Option Text) : Prop :=
  ∀ t, stringBody (raw ++ '"' :: t) = val.map fun s => (s, t)

theorem readsAs_encoded {enc : Char → Text} {s : Text} (h : ∀ c ∈ s, Encodes (enc c) c) :
    ReadsAs (s.flatMap enc) (some s) := by
  have hlength : s.length ≤ (s.flatMap enc).length := by
    induction s with
    | nil => exact Nat.le_refl 0
    | cons c s ih =>
      have hrest := ih fun d hd => h d (List.mem_cons_of_mem c hd)
      have hfirst : 1 ≤ (enc c).length := by
        obtain ⟨hw, -⟩ | ⟨e, hw, -⟩ := h c List.mem_cons_self <;> simp [hw]
      rw [List.flatMap_cons, List.length_append, List.length_cons]
      omega
  intro t
  refine chars_encoded h ?_ t
  rw [List.length_append, List.length_cons]
  omega

theorem readsAs_control {enc : Char → Text} {s : Text}
    (h : ∀ c ∈ s, Encodes (enc c) c ∨ enc c = [c] ∧ isControl c = true)
    (hcontrol : ∃ c ∈ s, enc c = [c] ∧ isControl c = true) : ReadsAs (s.flatMap enc) none :=
  fun _ => chars_control h hcontrol _ _

theorem readsAs_plain {s : Text} (h : ∀ c ∈ s, Plain c) : ReadsAs s (some s) := by
  have hread : ReadsAs (s.flatMap fun c => [c]) (some s) :=
    readsAs_encoded fun c hc => .inl ⟨rfl, h c hc⟩
  rwa [List.flatMap_singleton'] at hread

theorem skip_token {c : Char} (h : isSpace c = false) (t : Text) : skip (c :: t) = c :: t := by
  rw [skip, List.dropWhile_cons_of_neg (by simp [h])]

def memberText (key raw : Text) : Text :=
  '"' :: (key ++ '"' :: ':' :: '"' :: (raw ++ ['"']))

theorem value_string {raw : Text} {val : Option Text} (h : ReadsAs raw val) (fuel : Nat)
    (t : Text) :
    value (fuel + 1) ('"' :: (raw ++ '"' :: t)) = val.map fun s => (.string s, t) := by
  rw [value, skip_token rfl]
  dsimp only
  rw [if_pos rfl, h t]
  cases val <;> rfl

theorem members_cons {key raw : Text} {val : Option Text} (hkey : ReadsAs key (some key))
    (hraw : ReadsAs raw val) (fuel : Nat) {c : Char} (hc : isSpace c = false) (t : Text) :
    members (fuel + 2) (memberText key raw ++ c :: t) =
      val.bind fun s =>
        if c = '}' then some ([(key, .string s)], t)
        else if c = ',' then
          (members (fuel + 1) t).map fun p => ((key, .string s) :: p.1, p.2)
        else none := by
  have htext : memberText key raw ++ c :: t =
      '"' :: (key ++ '"' :: ':' :: ('"' :: (raw ++ '"' :: c :: t))) := by
    simp [memberText]
  rw [htext, members, skip_token rfl]
  dsimp only
  rw [if_pos rfl, hkey]
  simp only [Option.map_some, Option.bind_eq_bind, Option.bind_some]
  rw [skip_token rfl, List.head?_cons, if_pos rfl, List.tail_cons, value_string hraw]
  cases val with
  | none => rfl
  | some s =>
    simp only [Option.map_some, Option.bind_some, skip_token hc]
    cases members (fuel + 1) t <;> rfl

variable {α : Type} {key raw : α → Text} {val : α → Option Text}

theorem members_joined {as : List α} (hkey : ∀ a ∈ as, ReadsAs (key a) (some (key a)))
    (hraw : ∀ a ∈ as, ReadsAs (raw a) (val a)) (hne : as ≠ []) {fuel : Nat}
    (hfuel : as.length < fuel) (t : Text) :
    members fuel ([','].intercalate (as.map fun a => memberText (key a) (raw a)) ++ '}' :: t) =
      (as.mapM fun a => (val a).map fun s => (key a, Json.string s)).map fun ms => (ms, t) := by
  induction as generalizing fuel with
  | nil => exact absurd rfl hne
  | cons a as ih =>
    obtain ⟨fuel, rfl⟩ : ∃ n, fuel = n + 2 := ⟨fuel - 2, by simp at hfuel; omega⟩
    have hmember (c : Char) (hc : isSpace c = false) :=
      members_cons (hkey a List.mem_cons_self) (hraw a List.mem_cons_self) fuel hc
    rw [List.mapM_cons]
    cases as with
    | nil =>
      rw [List.map_cons, List.map_nil, List.intercalate_singleton, hmember '}' rfl]
      cases val a <;> rfl
    | cons b bs =>
      have hrest := ih (fun d hd => hkey d (List.mem_cons_of_mem a hd))
        (fun d hd => hraw d (List.mem_cons_of_mem a hd)) (List.cons_ne_nil b bs)
        (show (b :: bs).length < fuel + 1 by simpa using hfuel)
      rw [List.map_cons, List.map_cons, List.intercalate_cons_cons, List.append_assoc,
        List.append_assoc, List.singleton_append, hmember ',' rfl]
      rw [List.map_cons] at hrest
      rw [hrest]
      cases val a with
      | none => rfl
      | some s =>
        cases (b :: bs).mapM fun a => (val a).map fun s => (key a, Json.string s) <;> rfl

theorem length_le_joined (key raw : α → Text) (as : List α) :
    as.length ≤ ([','].intercalate (as.map fun a => memberText (key a) (raw a))).length := by
  induction as with
  | nil => exact Nat.zero_le _
  | cons a as ih =>
    cases as with
    | nil => simp [memberText]
    | cons b bs =>
      rw [List.map_cons] at ih
      rw [List.map_cons, List.map_cons, List.intercalate_cons_cons, List.length_append,
        List.length_append, List.length_cons]
      simp only [List.length_singleton]
      omega

theorem joined_cons (key raw : α → Text) (a : α) (as : List α) : ∃ t,
    [','].intercalate ((a :: as).map fun a => memberText (key a) (raw a)) = '"' :: t := by
  cases as with
  | nil => exact ⟨_, List.intercalate_singleton⟩
  | cons b bs => exact ⟨_, List.intercalate_cons_cons⟩

theorem parse_joined {as : List α} (hkey : ∀ a ∈ as, ReadsAs (key a) (some (key a)))
    (hraw : ∀ a ∈ as, ReadsAs (raw a) (val a)) :
    parse ('{' :: ([','].intercalate (as.map fun a => memberText (key a) (raw a)) ++ ['}'])) =
      (as.mapM fun a => (val a).map fun s => (key a, Json.string s)).map Json.object := by
  cases as with
  | nil => rfl
  | cons a as =>
    have hfuel : (a :: as).length < ('{' :: ([','].intercalate
        ((a :: as).map fun a => memberText (key a) (raw a)) ++ ['}'])).length := by
      refine Nat.lt_of_le_of_lt (length_le_joined key raw (a :: as)) ?_
      rw [List.length_cons, List.length_append]
      omega
    have hmembers := members_joined hkey hraw (List.cons_ne_nil a as) hfuel []
    obtain ⟨t, ht⟩ := joined_cons key raw a as
    rw [ht] at hmembers ⊢
    rw [parse, value, skip_token rfl]
    dsimp only
    rw [if_neg (by decide), if_pos rfl, List.cons_append, skip_token rfl, List.head?_cons,
      if_neg (by decide), ← List.cons_append, hmembers]
    cases (a :: as).mapM fun a => (val a).map fun s => (key a, Json.string s) <;> rfl

end Reading

end Pane.JsonText
