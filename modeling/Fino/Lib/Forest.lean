import Mathlib.Data.Finset.Card
import Mathlib.Data.List.Pairwise

/-!
# Forests of parents and children

`IsForest` says that the parents and the lists of children of nodes belong together, without a
cycle. `Walks` is the walk through the trees of some roots with children before their parent: it
meets every node once and nothing else (`Walks.mem_iff`, `Walks.nodup`), and no node before one that
descends from it (`Walks.ordered`). The number of descendants bounds the depth (`size_lt`).
-/

namespace Fino.Lib.Forest

open Relation List

variable {κ : Type*} {parent : κ → Option κ} {children : κ → List κ} {a b c p r x y : κ}

/-- The node `x` is `r` or descends from `r`. -/
def Below (parent : κ → Option κ) : κ → κ → Prop := ReflTransGen fun x y => parent x = some y

/-- The node `x` descends from `r`. -/
def Descends (parent : κ → Option κ) : κ → κ → Prop := TransGen fun x y => parent x = some y

/-- Children and parents agree, and no parent is below its child. -/
structure IsForest (parent : κ → Option κ) (children : κ → List κ) : Prop where
  mem_children : ∀ {c p}, c ∈ children p ↔ parent c = some p
  nodup : ∀ p, (children p).Nodup
  ranked : ∃ rank : κ → ℕ, ∀ c p, parent c = some p → rank p < rank c

lemma below_iff : Below parent x r ↔ x = r ∨ ∃ c, parent c = some r ∧ Below parent x c := by
  unfold Below
  rw [ReflTransGen.cases_tail_iff]
  constructor
  · rintro (h | ⟨c, hx, hc⟩)
    · exact .inl h.symm
    · exact .inr ⟨c, hc, hx⟩
  · rintro (h | ⟨c, hc, hx⟩)
    · exact .inl h.symm
    · exact .inr ⟨c, hx, hc⟩

lemma below_iff_eq_or_descends : Below parent x r ↔ x = r ∨ Descends parent x r := by
  unfold Below Descends
  rw [reflTransGen_iff_eq_or_transGen]
  exact or_congr_left eq_comm

lemma below_or_below (ha : Below parent x a) (hb : Below parent x b) :
    Below parent a b ∨ Below parent b a := by
  refine ReflTransGen.total_of_right_unique ?_ ha hb
  intro x y z hy hz
  exact Option.some.inj (hy.symm.trans hz)

namespace IsForest

variable (h : IsForest parent children)

include h

lemma not_descends_self (x : κ) : ¬ Descends parent x x := by
  obtain ⟨rank, hrank⟩ := h.ranked
  have hdesc : ∀ {y}, Descends parent x y → rank y < rank x := by
    intro y hy
    induction hy with
    | single hy => exact hrank _ _ hy
    | tail _ hlast ih => exact (hrank _ _ hlast).trans ih
  intro hx
  exact lt_irrefl _ (hdesc hx)

lemma not_below_child (hc : parent c = some r) : ¬ Below parent r c := by
  intro hr
  exact h.not_descends_self c (TransGen.head' hc hr)

lemma children_apart (r : κ) :
    (children r).Pairwise fun a b => ∀ x, Below parent x a → ¬ Below parent x b := by
  have hne := h.nodup r
  refine hne.imp_of_mem ?_
  intro a b ha hb hab x hxa hxb
  rw [h.mem_children] at ha hb
  -- One of the two would lie strictly below the other, and so would their parent.
  have hstrict : ∀ {a b}, parent a = some r → parent b = some r → a ≠ b → ¬ Below parent a b := by
    intro a b ha hb hab hbelow
    rw [Below, ReflTransGen.cases_head_iff] at hbelow
    obtain heq | ⟨p, hp, hpb⟩ := hbelow
    · exact hab heq
    · obtain rfl : r = p := Option.some.inj (ha.symm.trans hp)
      exact h.not_below_child hb hpb
  obtain hbelow | hbelow := below_or_below hxa hxb
  · exact hstrict ha hb hab hbelow
  · exact hstrict hb ha hab.symm hbelow

end IsForest

section Prune

variable {l : List κ}

/-- With a node, `l` has all that is below it. -/
def Closed (parent : κ → Option κ) (l : List κ) : Prop :=
  ∀ c p, parent c = some p → p ∈ l → c ∈ l

lemma Closed.mem_of_descends (h : Closed parent l) (hx : Descends parent x r) (hr : r ∈ l) :
    x ∈ l := by
  induction hx using TransGen.head_induction_on with
  | single hstep | head hstep _ hr => exact h _ _ hstep hr

variable [DecidableEq κ]

/-- The parents in a forest from which the nodes of `l` were taken out. -/
def prune (parent : κ → Option κ) (l : List κ) (x : κ) : Option κ :=
  if x ∈ l then none else parent x

lemma Descends.of_prune (h : Descends (prune parent l) x r) : Descends parent x r := by
  refine TransGen.mono ?_ _ _ h
  intro x y hxy
  unfold prune at hxy
  split_ifs at hxy
  exact hxy

lemma descends_prune_iff (h : Closed parent l) (hx : x ∉ l) :
    Descends (prune parent l) x r ↔ Descends parent x r := by
  refine ⟨Descends.of_prune, fun hxr => ?_⟩
  -- The nodes on the way up are left too, since `x` is below them.
  induction hxr using TransGen.head_induction_on with
  | single hstep => exact .single ((if_neg hx).trans hstep)
  | @head a b hstep _ ih => exact .head ((if_neg hx).trans hstep) (ih fun hb => hx (h _ _ hstep hb))

end Prune

/-! ## Walks -/

/-- The walk through the trees of `roots`, children before their parent, is `l`. -/
inductive Walks (children : κ → List κ) : List κ → List κ → Prop
  | nil : Walks children [] []
  | cons {c : κ} {cs l ls : List κ} : Walks children (children c) l → Walks children cs ls →
      Walks children (c :: cs) (l ++ c :: ls)

namespace Walks

variable {roots l : List κ}

section

variable (h : IsForest parent children)

include h

variable (hw : Walks children roots l)

include hw

lemma mem_iff : x ∈ l ↔ ∃ r ∈ roots, Below parent x r := by
  induction hw with
  | nil => simp
  | @cons c cs l ls _ _ ihc ihs =>
    have hc : x ∈ l ∨ x = c ↔ Below parent x c := by
      rw [below_iff, ihc, or_comm]
      exact or_congr_right (exists_congr fun d => and_congr_left fun _ => h.mem_children)
    rw [mem_append, mem_cons, ← or_assoc, hc, ihs]
    simp

section

variable (hapart : roots.Pairwise fun a b => ∀ x, Below parent x a → ¬ Below parent x b)

include hapart

lemma nodup : l.Nodup := by
  induction hw with
  | nil => exact nodup_nil
  | @cons c cs l ls hc hs ihc ihs =>
    obtain ⟨hhead, htail⟩ := pairwise_cons.mp hapart
    have hbelow : ∀ x ∈ l, ∃ d, parent d = some c ∧ Below parent x d := by
      intro x hx
      obtain ⟨d, hd, hxd⟩ := (hc.mem_iff h).mp hx
      exact ⟨d, h.mem_children.mp hd, hxd⟩
    have hrest : ∀ x ∈ ls, ¬ Below parent x c := by
      intro x hx hxc
      obtain ⟨d, hd, hxd⟩ := (hs.mem_iff h).mp hx
      exact hhead d hd x hxc hxd
    rw [nodup_append, nodup_cons]
    refine ⟨ihc (h.children_apart c), ⟨fun hmem => hrest c hmem .refl, ihs htail⟩, ?_⟩
    rintro x hx y hy rfl
    obtain ⟨d, hd, hxd⟩ := hbelow x hx
    rcases mem_cons.mp hy with rfl | hy
    · exact h.not_below_child hd hxd
    · exact hrest x hy (hxd.tail hd)

/-- A walk through trees that lie apart meets no node before one that descends from it. -/
lemma ordered : l.Pairwise fun x y => ¬ Descends parent y x := by
  induction hw with
  | nil => exact .nil
  | @cons c cs l ls hc hs ihc ihs =>
    obtain ⟨hhead, htail⟩ := pairwise_cons.mp hapart
    -- What comes after the tree of `c` is not below anything in it.
    have hafter : ∀ x, Below parent x c → ∀ y ∈ ls, ¬ Descends parent y x := by
      intro x hx y hy hyx
      obtain ⟨d, hd, hyd⟩ := (hs.mem_iff h).mp hy
      exact hhead d hd y (hyx.to_reflTransGen.trans hx) hyd
    rw [pairwise_append, pairwise_cons]
    refine ⟨ihc (h.children_apart c), ⟨hafter c .refl, ihs htail⟩, ?_⟩
    intro x hx y hy
    obtain ⟨d, hd, hxd⟩ := (hc.mem_iff h).mp hx
    rw [h.mem_children] at hd
    rcases mem_cons.mp hy with rfl | hy
    · intro hyx
      exact h.not_below_child hd (hyx.to_reflTransGen.trans hxd)
    · exact hafter x (hxd.tail hd) y hy

end

lemma closed : Closed parent l := by
  intro c p hc hp
  obtain ⟨r, hr, hpr⟩ := (hw.mem_iff h).mp hp
  exact (hw.mem_iff h).mpr ⟨r, hr, .head hc hpr⟩

end

lemma congr {children' : κ → List κ} (hw : Walks children roots l)
    (heq : ∀ x ∈ l, children' x = children x) : Walks children' roots l := by
  induction hw with
  | nil => exact .nil
  | @cons c cs l ls _ _ ihc ihs =>
    have hc : children' c = children c := heq c (by simp)
    refine .cons ?_ (ihs fun x hx => heq x (by simp [hx]))
    rw [hc]
    exact ihc fun x hx => heq x (by simp [hx])

end Walks

open Classical in
/-- The number of descendants of `r` among `nodes`. -/
noncomputable def size (parent : κ → Option κ) (nodes : Finset κ) (r : κ) : ℕ :=
  (nodes.filter fun x => Descends parent x r).card

lemma size_le (nodes : Finset κ) (r : κ) : size parent nodes r ≤ nodes.card := by
  classical
  exact Finset.card_filter_le _ _

lemma size_mono {parent' : κ → Option κ} (hle : ∀ x y, parent' x = some y → parent x = some y)
    (nodes : Finset κ) (r : κ) :
    size parent' nodes r ≤ size parent nodes r := by
  classical
  apply Finset.card_le_card
  intro x hx
  rw [Finset.mem_filter] at hx ⊢
  exact ⟨hx.1, TransGen.mono hle _ _ hx.2⟩

lemma size_lt (h : IsForest parent children) {nodes : Finset κ}
    (hnodes : ∀ c p, parent c = some p → c ∈ nodes) (hc : parent c = some r) :
    size parent nodes c < size parent nodes r := by
  classical
  apply Finset.card_lt_card
  rw [Finset.ssubset_iff_of_subset]
  · -- The child itself makes the difference.
    refine ⟨c, Finset.mem_filter.mpr ⟨hnodes c r hc, .single hc⟩, ?_⟩
    intro hmem
    exact h.not_descends_self c (Finset.mem_filter.mp hmem).2
  · intro x hx
    rw [Finset.mem_filter] at hx ⊢
    exact ⟨hx.1, hx.2.tail hc⟩

end Fino.Lib.Forest
