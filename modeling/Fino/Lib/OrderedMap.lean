import Mathlib.Data.List.AList

/-!
# Maps and sets in the order of insertion

The `Map` and the `Set` of ECMAScript iterate in the order in which keys were first put in.
`AList.set` replaces a value in place, or adds the entry behind the others; `AList.modify` changes
the value of a key if there is one, as a method call reached by `?.` does. A set is a map to `Unit`.
-/

namespace Fino.Lib

abbrev OrderedMap (κ ν : Type*) := AList fun _ : κ => ν

abbrev OrderedSet (κ : Type*) := OrderedMap κ Unit

end Fino.Lib

namespace AList

variable {κ ν : Type*} [DecidableEq κ] {m : AList fun _ : κ => ν} {k k' : κ} {v : ν}

/-- `set` of a `Map`. -/
def set (m : AList fun _ : κ => ν) (k : κ) (v : ν) : AList fun _ : κ => ν :=
  m.replace k v ∪ singleton k v

/-- A change of the value of a key that is present. -/
def modify (m : AList fun _ : κ => ν) (k : κ) (f : ν → ν) : AList fun _ : κ => ν :=
  match m.lookup k with
  | some v => m.replace k (f v)
  | none => m

/-- `add` of a `Set`. -/
def add (s : AList fun _ : κ => Unit) (k : κ) : AList fun _ : κ => Unit := s.set k ()

lemma lookup_replace (m : AList fun _ : κ => ν) (k k' : κ) (v : ν) :
    (m.replace k v).lookup k' = if k' = k then (m.lookup k).map fun _ => v else m.lookup k' := by
  show List.dlookup k' (List.kreplace k v m.entries) =
    if k' = k then (List.dlookup k m.entries).map fun _ => v else List.dlookup k' m.entries
  induction m.entries with
  | nil => simp [List.kreplace]
  | cons e l ih =>
    obtain ⟨i, w⟩ := e
    by_cases hi : k = i
    · -- The entry is found here, and nothing behind it changes.
      subst hi
      have hhead : List.kreplace k v (⟨k, w⟩ :: l) = ⟨k, v⟩ :: l :=
        List.lookmap_cons_some _ l (if_pos rfl)
      rw [hhead]
      by_cases hk : k' = k
      · subst hk
        simp
      · rw [if_neg hk, List.dlookup_cons_ne _ _ hk, List.dlookup_cons_ne _ _ hk]
    · have hhead : List.kreplace k v (⟨i, w⟩ :: l) = ⟨i, w⟩ :: List.kreplace k v l :=
        List.lookmap_cons_none _ l (if_neg hi)
      rw [hhead]
      by_cases hk : k' = i
      · subst hk
        rw [List.dlookup_cons_eq, List.dlookup_cons_eq, if_neg (Ne.symm hi)]
      · rw [List.dlookup_cons_ne _ _ hk, ih, List.dlookup_cons_ne _ _ hi,
          List.dlookup_cons_ne _ _ hk]

lemma lookup_set (m : AList fun _ : κ => ν) (k k' : κ) (v : ν) :
    (m.set k v).lookup k' = if k' = k then some v else m.lookup k' := by
  unfold set
  by_cases hm : k' ∈ m
  · rw [lookup_union_left (mem_replace.mpr hm), lookup_replace]
    by_cases hk : k' = k
    · subst hk
      obtain ⟨w, hw⟩ := Option.isSome_iff_exists.mp (lookup_isSome.mpr hm)
      simp [hw]
    · rw [if_neg hk, if_neg hk]
  · rw [lookup_union_right (mt mem_replace.mp hm)]
    by_cases hk : k' = k
    · subst hk
      rw [if_pos rfl, ← insert_empty, lookup_insert]
    · rw [if_neg hk, lookup_eq_none.mpr hm, ← insert_empty, lookup_insert_ne hk]
      rfl

@[simp]
lemma mem_set : k' ∈ m.set k v ↔ k' = k ∨ k' ∈ m := by
  rw [← lookup_isSome, lookup_set, ← lookup_isSome]
  split_ifs with hk <;> simp [hk]

variable (m : AList fun _ : κ => ν)

lemma lookup_erase_eq_ite (k k' : κ) :
    (m.erase k).lookup k' = if k' = k then none else m.lookup k' := by
  split_ifs with hk
  · rw [hk, lookup_erase]
  · exact lookup_erase_ne hk

lemma lookup_modify (k k' : κ) (f : ν → ν) :
    (m.modify k f).lookup k' = if k' = k then (m.lookup k).map f else m.lookup k' := by
  unfold modify
  cases hk : m.lookup k with
  | none =>
    split_ifs with heq
    · rw [heq, hk]
      rfl
    · rfl
  | some w =>
    rw [lookup_replace, hk]
    rfl

@[simp]
theorem mem_add {s : AList fun _ : κ => Unit} : k' ∈ s.add k ↔ k' = k ∨ k' ∈ s := mem_set

end AList
