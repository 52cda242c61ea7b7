import Mathlib.Data.List.Forall2

/-!
# Computations that may fail

When a computation in `Except` succeeds: each of its parts does, and so does each turn of a loop.
-/

namespace Fino.Lib.Outcome

open List

variable {ε ε' α β : Type} {f : α → Except ε β} {x : Except ε α} {l : List α} {r : List β} {b : β}
  {a : α}

/-- A sequence succeeds if both of its parts do. -/
lemma bind_eq_ok : (x >>= f) = .ok b ↔ ∃ a, x = .ok a ∧ f a = .ok b := by
  cases x with
  | error e | ok a => simp [bind, Except.bind]

lemma pure_eq_ok {b : α} : (pure a : Except ε α) = .ok b ↔ a = b := by
  rw [show (pure a : Except ε α) = .ok a from rfl, Except.ok.injEq]

lemma map_eq_ok {f : α → β} : f <$> x = .ok b ↔ ∃ a, x = .ok a ∧ b = f a := by
  cases x with
  | error e => simp [Functor.map, Except.map]
  | ok a =>
    simp [eq_comm]

/-- A check that may throw has passed. -/
lemma ite_error_eq_ok {c : Prop} [Decidable c] {e : ε} :
    (if c then .error e else x) = .ok a ↔ ¬ c ∧ x = .ok a := by
  split_ifs with hc
  · simp [hc]
  · simp [hc]

/-- A change of the error changes no success. -/
lemma mapError_eq_ok {g : ε → ε'} : x.mapError g = .ok a ↔ x = .ok a := by
  cases x with
  | error e | ok b => simp [Except.mapError]

/-- A loop succeeds if each of its turns does. -/
lemma mapM_eq_ok : l.mapM f = .ok r ↔ List.Forall₂ (fun a b => f a = .ok b) l r := by
  induction l generalizing r with
  | nil =>
    rw [mapM_nil, pure_eq_ok, forall₂_nil_left_iff]
    exact eq_comm
  | cons a l ih =>
    rw [mapM_cons, bind_eq_ok, forall₂_cons_left_iff]
    constructor
    · rintro ⟨b, hb, hrest⟩
      obtain ⟨r', hr', hr⟩ := bind_eq_ok.mp hrest
      exact ⟨b, r', hb, ih.mp hr', (pure_eq_ok.mp hr).symm⟩
    · rintro ⟨b, r', hb, hr', rfl⟩
      exact ⟨b, hb, bind_eq_ok.mpr ⟨r', ih.mpr hr', rfl⟩⟩

lemma exists_of_mem_mapM (h : l.mapM f = .ok r) (hb : b ∈ r) : ∃ a ∈ l, f a = .ok b := by
  induction mapM_eq_ok.mp h with
  | nil => cases hb
  | @cons a b' l r ha hrest ih =>
    obtain rfl | hb := mem_cons.mp hb
    · exact ⟨a, mem_cons_self, ha⟩
    · obtain ⟨a', ha', hf⟩ := ih (mapM_eq_ok.mpr hrest) hb
      exact ⟨a', mem_cons_of_mem a ha', hf⟩

/-- The results of a loop, where its successes are known by a relation. -/
lemma mapM_eq_ok_iff {γ : Type} {R : α → γ → Prop} {g : γ → β}
    (h : ∀ a b, f a = .ok b ↔ ∃ x, R a x ∧ b = g x) :
    l.mapM f = .ok r ↔ ∃ xs, List.Forall₂ R l xs ∧ r = xs.map g := by
  rw [mapM_eq_ok]
  constructor
  · intro hl
    induction hl with
    | nil => exact ⟨[], .nil, rfl⟩
    | cons hb _ ih =>
      obtain ⟨x, hx, rfl⟩ := (h _ _).mp hb
      obtain ⟨xs, hxs, rfl⟩ := ih
      exact ⟨x :: xs, .cons hx hxs, rfl⟩
  · rintro ⟨xs, hxs, rfl⟩
    rw [forall₂_map_right_iff]
    exact hxs.imp fun a x hx => (h a (g x)).mpr ⟨x, hx, rfl⟩

/-- A loop whose turns succeed or throw by a test of their items. -/
lemma mapM_ite {ok : α → Bool} {g : α → β} {e : ε}
    (h : ∀ a ∈ l, f a = if ok a then .ok (g a) else .error e) :
    l.mapM f = if l.all ok then .ok (l.map g) else .error e := by
  induction l with
  | nil => rfl
  | cons a l ih =>
    obtain ⟨ha, hl⟩ := forall_mem_cons.mp h
    rw [mapM_cons, ha, ih hl, all_cons, map_cons]
    cases ok a <;> cases l.all ok <;> rfl

end Fino.Lib.Outcome
