import Mathlib.Data.List.AList

namespace Pane.HashTable

abbrev Table (K V : Type) := AList (fun _ : K => V)

abbrev HashSet (K : Type) := Table K Unit

/-- The order in which a hash map hands out its elements. It is not
specified, but every element comes exactly once. -/
structure Order (α : Type) where
  arrange : List α → List α
  perm : ∀ l, (arrange l).Perm l

namespace Order

variable {α : Type}

def stored (α : Type) : Order α := ⟨id, fun _ => List.Perm.refl _⟩

@[simp] theorem mem_arrange (o : Order α) (l : List α) (a : α) : a ∈ o.arrange l ↔ a ∈ l :=
  (o.perm l).mem_iff

theorem nodup_arrange (o : Order α) {l : List α} (h : l.Nodup) : (o.arrange l).Nodup :=
  (o.perm l).nodup_iff.mpr h

@[simp] theorem arrange_nil (o : Order α) : o.arrange [] = [] :=
  List.Perm.eq_nil (o.perm [])

end Order

variable {K V : Type} [DecidableEq K]

theorem mem_iff_lookup {t : Table K V} {a : K} : a ∈ t ↔ ∃ v, t.lookup a = some v := by
  rw [← AList.lookup_isSome, Option.isSome_iff_exists]

theorem mem_of_lookup {t : Table K V} {a : K} {v : V} (h : t.lookup a = some v) : a ∈ t :=
  mem_iff_lookup.mpr ⟨v, h⟩

@[grind =] theorem lookup_erase (t : Table K V) (a b : K) :
    (t.erase b).lookup a = if a = b then none else t.lookup a := by
  by_cases h : a = b
  · subst h; simp
  · simp [h]

@[grind =] theorem lookup_insert (t : Table K V) (a b : K) (v : V) :
    (t.insert b v).lookup a = if a = b then some v else t.lookup a := by
  by_cases h : a = b
  · subst h; simp
  · simp [h]

theorem lookup_erase_erase (t : Table K V) (a b c : K) :
    ((t.erase b).erase c).lookup a = if a = b ∨ a = c then none else t.lookup a := by
  rw [lookup_erase, lookup_erase]
  by_cases hc : a = c
  · simp [hc]
  · by_cases hb : a = b <;> simp [hb, hc]

theorem lookup_of_lookup_erase {t : Table K V} {a b : K} {v : V}
    (h : (t.erase b).lookup a = some v) : a ≠ b ∧ t.lookup a = some v := by
  rw [lookup_erase] at h
  by_cases hab : a = b
  · simp [hab] at h
  · exact ⟨hab, by simpa [hab] using h⟩

theorem erase_insert {t : Table K V} {a : K} (h : a ∉ t) (v : V) : (t.insert a v).erase a = t := by
  apply AList.ext
  rw [show ((t.insert a v).erase a).entries = (t.insert a v).entries.kerase a from rfl,
    AList.entries_insert_of_notMem h]
  exact List.kerase_cons_eq rfl

theorem mem_entries_iff {t : Table K V} {a : K} {v : V} : ⟨a, v⟩ ∈ t.entries ↔ t.lookup a = some v :=
  AList.mem_lookup_iff.symm

theorem perm_erase {t : Table K V} {a : K} {v : V} (h : t.lookup a = some v) :
    t.entries.Perm (⟨a, v⟩ :: (t.erase a).entries) := by
  obtain ⟨w, before, after, -, heq, herase⟩ :=
    List.exists_of_kerase (AList.mem_keys.mp (mem_of_lookup h))
  have hw : t.lookup a = some w := by
    rw [← mem_entries_iff, heq]
    exact List.mem_append_right _ List.mem_cons_self
  obtain rfl : v = w := Option.some.inj (h.symm.trans hw)
  rw [heq, show (t.erase a).entries = before ++ after from herase]
  exact List.perm_middle

end Pane.HashTable
