import Mathlib.Data.List.Lex
import Mathlib.Order.Lattice

/-!
# The names that an NSEC record covers

`nsecCoversName` of `js/internal/net/dnssec.ts`. A name is the list of its labels, which the code
gets by splitting a text at its dots, and a label is the list of its character codes. The code
compares encoded names, which begin with the length of their first label: it compares labels from
the first one on, and first by their lengths (`before_wire`). The canonical order of names compares
labels from the last one on.
-/

namespace Fino.Dnssec

open List

/-- The characters of a label. A longer label is an error in `canonicalName`. -/
structure Label where
  codes : List ℕ
  nonempty : codes ≠ []
  short : codes.length ≤ 63
  plain : ∀ c ∈ codes, c < 128 ∧ c ≠ 46

def toLowerCase (text : List ℕ) : List ℕ := text.map fun c => if 65 ≤ c ∧ c ≤ 90 then c + 32 else c

variable (name : List Label)

def normalizedLowerName : List (List ℕ) := name.map (toLowerCase ·.codes)

/-- `canonicalName` of a name in small letters. -/
def canonicalName (labels : List (List ℕ)) : List ℕ :=
  labels.flatMap (fun label => label.length :: label) ++ [0]

def compareBytes : List ℕ → List ℕ → ℤ
  | a :: l, b :: m => if (a : ℤ) - b ≠ 0 then a - b else compareBytes l m
  | l, m => l.length - m.length

def canonicalNameCompare (a b : List (List ℕ)) : ℤ :=
  compareBytes (canonicalName a) (canonicalName b)

def nsecCoversName (owner next name : List Label) : Bool :=
  let ownerName := normalizedLowerName owner
  let nextName := normalizedLowerName next
  let target := normalizedLowerName name
  let ownerToNext := canonicalNameCompare ownerName nextName
  if target = ownerName then true
  else if ownerToNext < 0 then
    canonicalNameCompare ownerName target < 0 && canonicalNameCompare target nextName < 0
  else if 0 < ownerToNext then
    canonicalNameCompare ownerName target < 0 || canonicalNameCompare target nextName < 0
  else target ≠ ownerName

/-! ## The two orders -/

section

variable {α : Type} [LinearOrder α]

def before (a b : α) : Bool := a < b

/-- On a circle, `b` is strictly between `a` and `c`. -/
def between (a b c : α) : Bool :=
  if before a c then before a b && before b c else before a b || before b c

/-- How many of the three pairs stand in their order decides. -/
lemma between_eq (a b c : α) : between a b c = (before a b ^^ before b c ^^ before a c) := by
  unfold between before
  grind

end

/-- The labels in small letters, from the last one on. Their order is the canonical one. -/
def canonical : List (List ℕ) := (normalizedLowerName name).reverse

/-- The encoded name. -/
def wire : List ℕ := canonicalName (normalizedLowerName name)

/-- The order of labels from the first one on, in which a longer label comes after a shorter one. -/
def shortFirst : List (List ℕ) → List (List ℕ) → Bool
  | [], m => m ≠ []
  | _ :: _, [] => false
  | x :: l, y :: m =>
    if x = y then shortFirst l m
    else if x.length = y.length then before x y
    else before x.length y.length

/-- The two orders of labels are not the same for two names. -/
def differ (a b : List Label) : Bool :=
  shortFirst (normalizedLowerName a) (normalizedLowerName b) ^^ before (canonical a) (canonical b)

lemma canonicalName_cons (x : List ℕ) (l : List (List ℕ)) :
    canonicalName (x :: l) = x.length :: (x ++ canonicalName l) := by
  simp [canonicalName]

lemma canonicalName_inj {l m : List (List ℕ)} (hl : ∀ x ∈ l, x ≠ []) (hm : ∀ x ∈ m, x ≠ [])
    (h : canonicalName l = canonicalName m) : l = m := by
  induction l generalizing m with
  | nil =>
    cases m with
    | nil => rfl
    | cons y m =>
      rw [canonicalName_cons] at h
      exact absurd (length_eq_zero_iff.mp (cons.inj h).1.symm) (hm y mem_cons_self)
  | cons x l ih =>
    rw [canonicalName_cons] at h
    cases m with
    | nil => exact absurd (length_eq_zero_iff.mp (cons.inj h).1) (hl x mem_cons_self)
    | cons y m =>
      rw [canonicalName_cons] at h
      obtain ⟨hlength, hrest⟩ := cons.inj h
      obtain ⟨rfl, htail⟩ := append_inj hrest hlength
      rw [ih (forall_mem_cons.mp hl).2 (forall_mem_cons.mp hm).2 htail]

variable {name} in
/-- No label is empty. -/
lemma ne_nil_of_mem {x : List ℕ} (hx : x ∈ normalizedLowerName name) : x ≠ [] := by
  obtain ⟨label, -, rfl⟩ := mem_map.mp hx
  simpa [toLowerCase] using label.nonempty

lemma wire_ne {a b : List Label} (h : normalizedLowerName a ≠ normalizedLowerName b) :
    wire a ≠ wire b :=
  fun heq => h (canonicalName_inj (fun _ => ne_nil_of_mem) (fun _ => ne_nil_of_mem) heq)

/-- Beginnings of one length are compared before what follows them. -/
lemma append_lt_append_iff {x y : List ℕ} (hlength : x.length = y.length) (l m : List ℕ) :
    x ++ l < y ++ m ↔ x < y ∨ x = y ∧ l < m := by
  induction x generalizing y with
  | nil =>
    rw [length_eq_zero_iff.mp hlength.symm]
    simp
  | cons a x ih =>
    cases y with
    | nil => cases hlength
    | cons b y =>
      simp only [cons_append, cons_lt_cons_iff, ih (Nat.succ.inj hlength), cons.injEq]
      tauto

/-- The bytes of an encoded name are in the order of its labels from the first one on. -/
lemma before_canonicalName {l m : List (List ℕ)} (hl : ∀ x ∈ l, x ≠ []) (hm : ∀ x ∈ m, x ≠ []) :
    before (canonicalName l) (canonicalName m) = shortFirst l m := by
  induction l generalizing m with
  | nil =>
    cases m with
    | nil => rfl
    | cons y m =>
      have hpos := length_pos_iff.mpr (hm y mem_cons_self)
      simp [before, shortFirst, canonicalName, cons_lt_cons_iff, hpos]
  | cons x l ih =>
    cases m with
    | nil =>
      have hpos := length_pos_iff.mpr (hl x mem_cons_self)
      simp [before, shortFirst, canonicalName, cons_lt_cons_iff, hpos.ne']
    | cons y m =>
      rw [canonicalName_cons, canonicalName_cons, shortFirst, before]
      simp only [cons_lt_cons_iff]
      split_ifs with hsame hlength
      · subst hsame
        rw [← ih (forall_mem_cons.mp hl).2 (forall_mem_cons.mp hm).2]
        simp [before, append_lt_append_iff]
      · simp [before, hlength, append_lt_append_iff hlength, hsame]
      · simp [before, hlength]

lemma before_wire (a b : List Label) : before (wire a) (wire b) =
    shortFirst (normalizedLowerName a) (normalizedLowerName b) :=
  before_canonicalName (fun _ => ne_nil_of_mem) fun _ => ne_nil_of_mem

lemma compareBytes_iff (l m : List ℕ) :
    (compareBytes l m < 0 ↔ l < m) ∧ (0 < compareBytes l m ↔ m < l) := by
  fun_induction compareBytes l m with
  | case1 a l b m h =>
    rw [cons_lt_cons_iff, cons_lt_cons_iff]
    omega
  | case2 a l b m h ih =>
    obtain rfl : a = b := by omega
    simpa using ih
  | case3 l m h =>
    cases l with
    | nil => cases m <;> (simp; try omega)
    | cons a l =>
      cases m with
      | nil => simp; omega
      | cons b m => exact absurd rfl (h a l b m rfl)

variable (owner next name : List Label)

/-- The code goes by the circle of the encoded names, and takes the owner for covered. -/
lemma nsecCoversName_eq : nsecCoversName owner next name =
    (decide (normalizedLowerName name = normalizedLowerName owner) ||
      between (wire owner) (wire name) (wire next)) := by
  unfold nsecCoversName canonicalNameCompare between before
  simp only [compareBytes_iff]
  by_cases hsame : normalizedLowerName name = normalizedLowerName owner
  · simp [hsame]
  · have hne := (wire_ne hsame).lt_or_gt
    unfold wire at hne ⊢
    simp only [hsame]
    grind

lemma xor_eq_xor_iff : ∀ p q r p' q' r' : Bool,
    (p ^^ q ^^ r) = (p' ^^ q' ^^ r') ↔ ((p ^^ p') ^^ (q ^^ q') ^^ (r ^^ r')) = false := by
  decide

/-- `nsecCoversName` says whether the name is strictly between the owner and the next name in the
canonical order, exactly if the name is not the owner and the order of labels from the first one on
differs from the canonical one on none or on two of the three pairs. -/
theorem nsecCoversName_iff :
    nsecCoversName owner next name = between (canonical owner) (canonical name) (canonical next) ↔
      normalizedLowerName name ≠ normalizedLowerName owner ∧
        (differ owner name ^^ differ name next ^^ differ owner next) = false := by
  rw [nsecCoversName_eq, between_eq, between_eq, before_wire, before_wire, before_wire]
  by_cases hsame : normalizedLowerName name = normalizedLowerName owner
  · have heq : canonical name = canonical owner := congrArg reverse hsame
    have hself : before (canonical owner) (canonical owner) = false := by simp [before]
    simp [hsame, heq, hself]
  · simp only [hsame, decide_false, Bool.false_or, ne_eq, not_false_eq_true, true_and]
    exact xor_eq_xor_iff ..

def exampleName (c : Fin 26) (n : Fin 63) : List Label :=
  [⟨replicate (n + 1) (97 + c), by simp, by rw [length_replicate]; omega, by simp; omega⟩]

/-- `zz` is taken to be between `a` and `ccc`, as its length is. -/
theorem longer_name_covered :
    nsecCoversName (exampleName 0 0) (exampleName 2 2) (exampleName 25 1) = true ∧
      between (canonical (exampleName 0 0)) (canonical (exampleName 25 1))
        (canonical (exampleName 2 2)) = false := by
  decide +kernel

end Fino.Dnssec
