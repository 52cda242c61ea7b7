import Mathlib.Data.List.Nodup
import Mathlib.Data.List.Pairwise
import Mathlib.Data.Option.Basic

/-!
# Tables with a primary key and a unique index

A table is a list of rows with distinct keys, no two of which clash; `commit` checks what a
statement leaves. An `Update` carries the proof that it leaves keys alone, so its effect on the
table is its effect on the row under each key (`row_update`). `updateEach` runs one update for each
of a list of rows.
-/

namespace Fino.Lib

open List Option

variable {ρ κ : Type*} {key : ρ → κ} {clash : ρ → ρ → Prop} {r : ρ}

lemma find?_eq_some_of_mem [DecidableEq κ] {l : List ρ} (hl : (l.map key).Nodup) (hr : r ∈ l) :
    l.find? (fun q => key q = key r) = some r := by
  cases hfind : l.find? fun q => key q = key r with
  | none => exact absurd (find?_eq_none.mp hfind r hr) (by simp)
  | some q =>
    have hkey : key q = key r := by simpa using find?_some hfind
    rw [inj_on_of_nodup_map hl (mem_of_find?_eq_some hfind) hr hkey]

/-- Rows with distinct keys, no two of which clash. -/
structure Table (ρ : Type*) {κ : Type*} (key : ρ → κ) (clash : ρ → ρ → Prop) where
  rows : List ρ
  keys_nodup : (rows.map key).Nodup
  no_clash : rows.Pairwise fun a b => ¬ clash a b

/-- `UPDATE … SET set WHERE filter`, of columns that are not part of the key. -/
structure Update (key : ρ → κ) where
  filter : ρ → Bool
  set : ρ → ρ
  key_eq : ∀ r, key (set r) = key r := by intro _; rfl

def Update.effect (u : Update key) (r : ρ) : ρ := if u.filter r then u.set r else r

lemma Update.key_effect (u : Update key) (r : ρ) : key (u.effect r) = key r := by
  unfold effect
  split_ifs
  · exact u.key_eq r
  · rfl

variable {u : Update key}

lemma Update.effect_of_filter (h : u.filter r) :
    u.effect r = u.set r := if_pos h

lemma Update.effect_of_not_filter (h : u.filter r = false) :
    u.effect r = r := if_neg (by simp [h])

namespace Table

def empty : Table ρ key clash := ⟨[], nodup_nil, List.Pairwise.nil⟩

lemma not_clash [Std.Symm clash] (t : Table ρ key clash) {a b : ρ} (ha : a ∈ t.rows)
    (hb : b ∈ t.rows) (hne : key a ≠ key b) : ¬ clash a b := by
  have hsymm : Std.Symm fun a b => ¬ clash a b := ⟨fun _ _ h h' => h (Std.Symm.symm _ _ h')⟩
  exact t.no_clash.forall ha hb fun h => hne (h ▸ rfl)

variable [DecidableEq κ] {t t' : Table ρ key clash}

def row (t : Table ρ key clash) (k : κ) : Option ρ := t.rows.find? fun r => decide (key r = k)

lemma row_eq_some {k : κ} : t.row k = some r ↔ r ∈ t.rows ∧ key r = k := by
  unfold row
  constructor
  · intro h
    exact ⟨mem_of_find?_eq_some h, by simpa using find?_some h⟩
  · rintro ⟨hr, rfl⟩
    exact find?_eq_some_of_mem t.keys_nodup hr

lemma key_of_row {k : κ} (h : t.row k = some r) : key r = k := (row_eq_some.mp h).2

/-- `DELETE … WHERE filter`. -/
def delete (t : Table ρ key clash) (filter : ρ → Bool) : Table ρ key clash where
  rows := t.rows.filter fun r => !filter r
  keys_nodup := t.keys_nodup.sublist (filter_sublist.map key)
  no_clash := t.no_clash.sublist filter_sublist

lemma row_delete (filter : ρ → Bool) (k : κ) :
    (t.delete filter).row k = (t.row k).filter fun r => !filter r := by
  cases hr : t.row k with
  | none =>
    rw [filter_none, eq_none_iff_forall_ne_some]
    intro q hq
    obtain ⟨hmem, hkey⟩ := row_eq_some.mp hq
    have hrow := row_eq_some.mpr ⟨(mem_filter.mp hmem).1, hkey⟩
    exact absurd (hr.symm.trans hrow) (by simp)
  | some r =>
    obtain ⟨hmem, hkey⟩ := row_eq_some.mp hr
    rw [filter_some]
    split_ifs with hf
    · exact row_eq_some.mpr ⟨mem_filter.mpr ⟨hmem, hf⟩, hkey⟩
    · rw [eq_none_iff_forall_ne_some]
      intro q hq
      obtain ⟨hmemq, hkeyq⟩ := row_eq_some.mp hq
      obtain ⟨hmemq, hfq⟩ := mem_filter.mp hmemq
      rw [inj_on_of_nodup_map t.keys_nodup hmemq hmem (hkeyq.trans hkey.symm)] at hfq
      exact hf hfq

@[simp]
theorem row_empty (k : κ) : (empty : Table ρ key clash).row k = none := rfl

section Statements

variable [DecidableRel clash]

/-- The table with the given rows, if they keep the constraints. -/
def commit (rows : List ρ) : Option (Table ρ key clash) :=
  if h : (rows.map key).Nodup ∧ rows.Pairwise fun a b => ¬ clash a b then some ⟨rows, h.1, h.2⟩
  else none

def insert (t : Table ρ key clash) (r : ρ) : Option (Table ρ key clash) := commit (t.rows ++ [r])

/-- The table after an update, or `none` if the update fails. -/
def update (t : Table ρ key clash) (u : Update key) : Option (Table ρ key clash) :=
  commit (t.rows.map u.effect)

/-- One update for each of the given rows, in their order; if one fails, all are rolled back. -/
def updateEach (u : ρ → Update key) : Table ρ key clash → List ρ → Option (Table ρ key clash)
  | t, [] => some t
  | t, r :: rs => (t.update (u r)).bind fun t' => updateEach u t' rs

/-! ## Rows after a statement -/

lemma commit_eq_some {rows : List ρ} : commit rows = some t ↔ t.rows = rows := by
  unfold commit
  constructor
  · intro h
    split_ifs at h with hok
    cases h
    rfl
  · rintro rfl
    rw [dif_pos ⟨t.keys_nodup, t.no_clash⟩]

lemma row_update (h : t.update u = some t') (k : κ) : t'.row k = (t.row k).map u.effect := by
  rw [row, commit_eq_some.mp h, find?_map, row]
  simp only [Function.comp_def, Update.key_effect]

lemma row_insert (h : t.insert r = some t') (k : κ) :
    t'.row k = if key r = k then some r else t.row k := by
  have hrows : t'.rows = t.rows ++ [r] := commit_eq_some.mp h
  split_ifs with hk
  · exact row_eq_some.mpr ⟨by simp [hrows], hk⟩
  · rw [row, hrows, find?_append, find?_singleton, decide_eq_false hk]
    simp [row]

lemma row_of_insert (h : t.insert r = some t') : t.row (key r) = none := by
  have hrows : t'.rows = t.rows ++ [r] := commit_eq_some.mp h
  have hnodup := t'.keys_nodup
  rw [hrows, map_append, nodup_append] at hnodup
  rw [eq_none_iff_forall_ne_some]
  intro q hq
  obtain ⟨hmem, hkey⟩ := row_eq_some.mp hq
  exact hnodup.2.2 _ (mem_map_of_mem hmem) (key r) (by simp) hkey

/-- The row under a key after one update for each of some rows with distinct keys, each of which
concerns the row of its key only. -/
lemma row_updateEach {u : ρ → Update key} (hu : ∀ r q, (u r).filter q = decide (key q = key r))
    {rs : List ρ} (hrs : (rs.map key).Nodup) (h : updateEach u t rs = some t') (k : κ) :
    t'.row k = (t.row k).map fun q =>
      match rs.find? fun r => decide (key r = k) with
      | some r => (u r).set q
      | none => q := by
  induction rs generalizing t with
  | nil =>
    simp only [updateEach, Option.some.injEq] at h
    simp [h]
  | cons r rs ih =>
    simp only [updateEach, Option.bind_eq_some_iff] at h
    obtain ⟨t₁, h₁, h⟩ := h
    rw [map_cons, nodup_cons] at hrs
    rw [ih hrs.2 h, row_update h₁, Option.map_map]
    by_cases hk : key r = k
    · -- The update of the first row is the only one of this key.
      have hrest : (rs.find? fun r => decide (key r = k)) = none := by
        rw [find?_eq_none]
        intro q hq hqk
        exact hrs.1 (hk ▸ of_decide_eq_true hqk ▸ mem_map_of_mem hq)
      rw [find?_cons_of_pos (by simpa using hk), hrest]
      cases hrow : t.row k with
      | none => rfl
      | some q =>
        have hq : (u r).filter q := by rw [hu, key_of_row hrow, hk]; simp
        simp [Update.effect_of_filter hq]
    · rw [find?_cons_of_neg (by simpa using hk)]
      cases hrow : t.row k with
      | none => rfl
      | some q =>
        have hq : (u r).filter q = false := by
          rw [hu, key_of_row hrow]
          exact decide_eq_false fun h => hk h.symm
        simp [Update.effect_of_not_filter hq]

/-- Two rows of the table, under different keys, would clash after the update. -/
def Collides (t : Table ρ key clash) (u : Update key) : Prop :=
  ∃ a ∈ t.rows, ∃ b ∈ t.rows, key a ≠ key b ∧ clash (u.effect a) (u.effect b)

lemma update_isSome_iff [Std.Symm clash] : (t.update u).isSome ↔ ¬ t.Collides u := by
  constructor
  · rintro h ⟨a, ha, b, hb, hne, hclash⟩
    obtain ⟨t', ht'⟩ := isSome_iff_exists.mp h
    have hrows : t'.rows = t.rows.map u.effect := commit_eq_some.mp ht'
    refine t'.not_clash ?_ ?_ ?_ hclash
    · exact hrows ▸ mem_map_of_mem ha
    · exact hrows ▸ mem_map_of_mem hb
    · rwa [u.key_effect, u.key_effect]
  · intro h
    have hkeys : ((t.rows.map u.effect).map key).Nodup := by
      simpa [Function.comp_def, Update.key_effect] using t.keys_nodup
    have hclash : (t.rows.map u.effect).Pairwise fun a b => ¬ clash a b := by
      rw [pairwise_map]
      apply (List.Nodup.of_map key t.keys_nodup).pairwise_of_forall_ne
      intro a ha b hb hab hclash
      have hne : key a ≠ key b := fun h' =>
        hab (inj_on_of_nodup_map t.keys_nodup ha hb h')
      exact h ⟨a, ha, b, hb, hne, hclash⟩
    rw [isSome_iff_exists]
    exact ⟨⟨_, hkeys, hclash⟩, commit_eq_some.mpr rfl⟩

lemma insert_isSome (hfree : t.row (key r) = none) (hclash : ∀ q ∈ t.rows, ¬ clash q r) :
    (t.insert r).isSome := by
  have hkeys : ((t.rows ++ [r]).map key).Nodup := by
    rw [map_append, nodup_append]
    refine ⟨t.keys_nodup, by simp, ?_⟩
    rintro k hk k' hk' rfl
    obtain ⟨q, hq, rfl⟩ := mem_map.mp hk
    have hqr : key q = key r := by simpa using hk'
    exact absurd (hfree.symm.trans (row_eq_some.mpr ⟨hq, hqr⟩)) (by simp)
  have hpair : (t.rows ++ [r]).Pairwise fun a b => ¬ clash a b := by
    rw [pairwise_append]
    exact ⟨t.no_clash, by simp, fun q hq x hx => mem_singleton.mp hx ▸ hclash q hq⟩
  rw [isSome_iff_exists]
  exact ⟨⟨_, hkeys, hpair⟩, commit_eq_some.mpr rfl⟩

end Statements

end Table

end Fino.Lib
