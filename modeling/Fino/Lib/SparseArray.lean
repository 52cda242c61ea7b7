import Mathlib.Data.List.Basic
import Mathlib.Tactic.Linarith

/-!
# Sparse arrays

A list of optional entries, in which a position past the end is a hole as well. `set` pads with
holes, `erase` makes a hole, and `advance p a i` is the loop that moves an index forward while its
entry satisfies `p` (`advance_eq`); it stops at the length of the longest such prefix
(`advance_eq_of_filled`).
-/

namespace Fino.Lib

open List

abbrev SparseArray (α : Type*) := List (Option α)

namespace SparseArray

variable {α : Type*} (a : SparseArray α) {i : ℕ} {x y : α} {p : α → Prop}

/-- The entry at a position, or `none` for a hole or a position past the end. -/
def get (i : ℕ) : Option α := (a[i]?).join

/-- The array with holes appended up to length `n`. -/
def pad (n : ℕ) : SparseArray α := a ++ List.replicate (n - a.length) none

/-- The array with `x` at position `i`. -/
def set (i : ℕ) (x : α) : SparseArray α := List.set (pad a (i + 1)) i (some x)

/-- The array with a hole at position `i`. -/
def erase (i : ℕ) : SparseArray α := List.set a i none

/-- Every entry that is present satisfies `p`. -/
def All (p : α → Prop) : Prop := ∀ i x, get a i = some x → p x

@[simp]
theorem get_nil (i : ℕ) : get ([] : SparseArray α) i = none := rfl

@[simp]
lemma get_pad (n i : ℕ) : get (pad a n) i = get a i := by
  unfold get pad
  rcases lt_or_ge i a.length with h | h
  · rw [List.getElem?_append_left h]
  · rw [List.getElem?_append_right h, List.getElem?_eq_none h, List.getElem?_replicate]
    split_ifs <;> rfl

lemma lt_length_pad (i : ℕ) : i < (pad a (i + 1)).length := by
  simp only [pad, length_append, length_replicate]
  omega

@[simp]
lemma get_set_self (i : ℕ) (x : α) : get (set a i x) i = some x := by
  unfold get set
  rw [List.getElem?_set_self (lt_length_pad a i)]
  rfl

@[simp]
lemma get_set_ne {j : ℕ} (x : α) (h : i ≠ j) : get (set a i x) j = get a j := by
  have hpad : get (set a i x) j = get (pad a (i + 1)) j := by
    unfold get set
    rw [List.getElem?_set_ne h]
  rw [hpad, get_pad]

lemma get_set (i j : ℕ) (x : α) : get (set a i x) j = if i = j then some x else get a j := by
  split_ifs with h
  · rw [h, get_set_self]
  · exact get_set_ne a x h

lemma get_erase (i j : ℕ) : get (erase a i) j = if i = j then none else get a j := by
  unfold get erase
  split_ifs with h
  · subst h
    rw [List.getElem?_set]
    split_ifs <;> simp_all
  · rw [List.getElem?_set_ne h]

/-- An entry that is still present after `erase` was there before, at another position. -/
lemma get_of_get_erase {j : ℕ} (h : get (erase a i) j = some x) : j ≠ i ∧ get a j = some x := by
  rw [get_erase] at h
  split_ifs at h with hij
  exact ⟨fun h' => hij h'.symm, h⟩

lemma all_iff_forall_mem (p : α → Prop) : All a p ↔ ∀ o ∈ a, ∀ x ∈ o, p x := by
  constructor
  · intro h o ho x hx
    obtain ⟨i, hi, hget⟩ := getElem_of_mem ho
    apply h i x
    rw [get, List.getElem?_eq_getElem hi, hget]
    exact hx
  · intro h i x hx
    unfold get at hx
    cases ho : a[i]? with
    | none => rw [ho] at hx; simp at hx
    | some o =>
      rw [ho] at hx
      exact h o (mem_of_getElem? ho) x hx

instance (p : α → Prop) [DecidablePred p] : Decidable (All a p) :=
  decidable_of_iff _ (all_iff_forall_mem a p).symm

lemma All.set_of_erase (h : All (erase a i) p) (hx : p x) : All (set a i x) p := by
  intro j y hy
  rw [get_set] at hy
  split_ifs at hy with hij
  · exact Option.some.inj hy ▸ hx
  · apply h j y
    rw [get_erase, if_neg hij, hy]

lemma All.erase (h : All a p) (i : ℕ) : All (SparseArray.erase a i) p :=
  fun j y hy => h j y (get_of_get_erase a hy).2

lemma All.set (h : All a p) (i : ℕ) (hx : p x) : All (SparseArray.set a i x) p :=
  (h.erase a i).set_of_erase a hx

def extend (xs : List α) : SparseArray α := a ++ xs.map some

/-- An entry of the extended array is an entry of the array, or one of those appended. -/
lemma get_extend (xs : List α) (i : ℕ) :
    get (extend a xs) i = if i < a.length then get a i else xs[i - a.length]? := by
  unfold get extend
  split_ifs with h
  · rw [List.getElem?_append_left h]
  · rw [List.getElem?_append_right (Nat.le_of_not_lt h), List.getElem?_map]
    cases xs[i - a.length]? <;> rfl

lemma lt_length_of_get (h : get a i = some x) : i < a.length := by
  by_contra hlt
  rw [get, List.getElem?_eq_none (Nat.le_of_not_lt hlt)] at h
  simp at h

variable (p : α → Bool)

/-- The number of entries that satisfy `p`. -/
def count : ℕ := a.countP fun o => o.any p

lemma count_extend (xs : List α) : count (extend a xs) p = count a p + xs.countP p := by
  unfold count extend
  rw [countP_append, countP_map]
  rfl

lemma countP_listSet {x : Option α} (h : get a i = some y) :
    List.countP (fun o => o.any p) (List.set a i x) + (if p y then 1 else 0) =
      count a p + if x.any p then 1 else 0 := by
  have hi : i < a.length := lt_length_of_get a h
  have hget : a[i] = some y := by
    rw [get, List.getElem?_eq_getElem hi] at h
    exact h
  have hpos : p y → 0 < a.countP fun o => o.any p := by
    intro hp
    rw [countP_pos_iff]
    exact ⟨some y, hget ▸ getElem_mem hi, hp⟩
  rw [countP_set hi, hget, count]
  simp only [Option.any_some]
  by_cases hp : p y
  · have hpos' := hpos hp
    rw [if_pos hp]
    omega
  · rw [if_neg hp]
    omega

lemma count_set (x : α) (h : get a i = some y) :
    count (set a i x) p + (if p y then 1 else 0) = count a p + if p x then 1 else 0 := by
  have hpad : pad a (i + 1) = a := by
    have hi : i < a.length := lt_length_of_get a h
    rw [pad, Nat.sub_eq_zero_of_le hi, replicate_zero, append_nil]
  rw [set, hpad]
  exact countP_listSet a p h

lemma count_erase (h : get a i = some y) :
    count (erase a i) p + (if p y then 1 else 0) = count a p := by
  have := countP_listSet a p (x := none) h
  simpa [erase, count] using this

lemma count_erase_of_none (h : get a i = none) : count (erase a i) p = count a p := by
  unfold count erase
  rcases lt_or_ge i a.length with hi | hi
  · have hget : a[i] = none := by
      rw [get, List.getElem?_eq_getElem hi] at h
      exact h
    rw [countP_set hi, hget]
    simp
  · rw [set_eq_of_length_le hi]

variable {p : α → Bool}

lemma count_eq_zero (h : ∀ i x, get a i = some x → p x = false) : count a p = 0 := by
  have hall : All a fun x => p x = false := h
  rw [all_iff_forall_mem] at hall
  rw [count, countP_eq_zero]
  intro o ho
  cases o with
  | none => simp
  | some x => simp [hall _ ho x rfl]

lemma count_erase_le (p : α → Bool) (i : ℕ) : count (erase a i) p ≤ count a p := by
  cases h : get a i with
  | none => rw [count_erase_of_none a p h]
  | some y => exact (count_erase a p h).symm ▸ Nat.le_add_right _ _

/-! ## The loop that moves an index over the entries present -/

/-- The index that `while (p (a[i])) i++` ends with. -/
def advance (p : α → Bool) (i : ℕ) : ℕ := i + ((a.drop i).takeWhile fun o => o.any p).length

/-- Every position below `n` holds an entry that satisfies `p`. -/
def Filled (p : α → Bool) (n : ℕ) : Prop := ∀ i < n, (get a i).any p = true

/-- The length of the longest prefix whose entries are all present and satisfy `p`. -/
def prefixLength (p : α → Bool) : ℕ := (a.takeWhile fun o => o.any p).length

/-- The equation of the loop: it moves on exactly when the entry under the index is present and
satisfies `p`. -/
lemma advance_eq (p : α → Bool) (i : ℕ) :
    advance a p i = if (get a i).any p then advance a p (i + 1) else i := by
  unfold advance
  rcases lt_or_ge i a.length with h | h
  · have hget : get a i = a[i] := by rw [get, List.getElem?_eq_getElem h]; rfl
    rw [drop_eq_getElem_cons h, takeWhile_cons, hget]
    split_ifs
    · rw [length_cons]; omega
    · rfl
  · have hget : get a i = none := by rw [get, List.getElem?_eq_none h]; rfl
    rw [drop_eq_nil_of_le h, hget]
    rfl

lemma le_advance (p : α → Bool) (i : ℕ) : i ≤ advance a p i := Nat.le_add_right _ _

lemma prefixLength_eq_advance (p : α → Bool) : prefixLength a p = advance a p 0 := by
  simp [prefixLength, advance]

lemma filled_prefixLength (p : α → Bool) : Filled a p (prefixLength a p) := by
  intro i hi
  have hmem : (a.takeWhile fun o => o.any p)[i]? = a[i]? := by
    obtain ⟨rest, hrest⟩ := takeWhile_prefix (l := a) fun o => o.any p
    conv_rhs => rw [← hrest]
    exact (List.getElem?_append_left hi).symm
  have htake := List.getElem?_eq_getElem hi
  have hp := all_takeWhile (l := a) (p := fun o => o.any p)
  rw [all_eq_true] at hp
  rw [get, ← hmem, htake]
  exact hp _ (getElem_mem hi)

lemma not_any_prefixLength (p : α → Bool) : (get a (prefixLength a p)).any p = false := by
  unfold get prefixLength
  induction a with
  | nil => rfl
  | cons o a ih =>
    rw [takeWhile_cons]
    split_ifs with h
    · simpa using ih
    · simpa using h

/-- From an index below which the entries are filled, the loop ends at the prefix length. -/
lemma advance_eq_of_filled (p : α → Bool) (n : ℕ) (h : Filled a p n) :
    advance a p n = prefixLength a p := by
  induction n with
  | zero => rw [prefixLength_eq_advance]
  | succ n ih =>
    rw [← ih fun i hi => h i (Nat.lt_succ_of_lt hi), advance_eq a p n,
      if_pos (h n (Nat.lt_succ_self n))]

lemma Filled.set {n : ℕ} (h : Filled a p n) (i : ℕ) (hx : p x) :
    Filled (set a i x) p n := by
  intro j hj
  rw [get_set]
  split_ifs
  · exact hx
  · exact h j hj

end SparseArray

end Fino.Lib
