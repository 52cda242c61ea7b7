import Mathlib.Logic.Relation
import Mathlib.Data.Option.Basic

/-!
# Guarded runs of a transition function

A system is a partial function `step : S → A → Option S`, with `none` where an action is not
enabled. A run is taken under a condition `ok` on the state before each step and its action.
`Run.invariant` and `Run.relate` turn a fact about one step into one about every run, `exec`
computes the run of a list of actions, and `watch` adds a history variable that no step reads.
-/

namespace Fino.Lib

variable {S A G : Type*} {I : S → Prop}

/-- One step from `s` to `t` by an action that meets `ok` in `s`. -/
def Guarded (step : S → A → Option S) (ok : S → A → Prop) (s t : S) : Prop :=
  ∃ a, ok s a ∧ step s a = some t

/-- `t` is reached from `s` by steps that each meet `ok` in the state they are taken from. -/
def Run (step : S → A → Option S) (ok : S → A → Prop) : S → S → Prop :=
  Relation.ReflTransGen (Guarded step ok)

/-- The condition that every step meets. -/
def Any : S → A → Prop := fun _ _ => True

section Rules

variable {step : S → A → Option S} {ok : S → A → Prop} {s t u : S}

lemma Run.refl (s : S) : Run step ok s s := Relation.ReflTransGen.refl

lemma Run.tail {a : A} (h : Run step ok s t) (hok : ok t a) (hstep : step t a = some u) :
    Run step ok s u :=
  Relation.ReflTransGen.tail h ⟨a, hok, hstep⟩

lemma Run.trans (h : Run step ok s t) (h' : Run step ok t u) : Run step ok s u :=
  Relation.ReflTransGen.trans h h'

lemma Run.invariant (hstep : ∀ s a t, I s → ok s a → step s a = some t → I t)
    (h : Run step ok s t) (hs : I s) : I t := by
  induction h with
  | refl => exact hs
  | tail _ hlast ih =>
    obtain ⟨a, hok, ha⟩ := hlast
    exact hstep _ a _ ih hok ha

/-- A reflexive and transitive relation that every step from a state with the invariant `I` lies in
holds between the ends of every run. -/
lemma Run.relate {R : S → S → Prop} (hrefl : ∀ s, R s s) (htrans : ∀ s t u, R s t → R t u → R s u)
    (hstep : ∀ s a t, I s → ok s a → step s a = some t → I t ∧ R s t) (h : Run step ok s t)
    (hs : I s) : R s t := by
  have key : I t ∧ R s t := by
    induction h with
    | refl => exact ⟨hs, hrefl s⟩
    | tail _ hlast ih =>
      obtain ⟨a, hok, ha⟩ := hlast
      obtain ⟨hi, hr⟩ := hstep _ a _ ih.1 hok ha
      exact ⟨hi, htrans _ _ _ ih.2 hr⟩
  exact key.2

end Rules

/-- The state that the actions `as` lead to from `s`, or `none` when one of them is not enabled. -/
def exec (step : S → A → Option S) : S → List A → Option S
  | s, [] => some s
  | s, a :: as => (step s a).bind fun t => exec step t as

/-- The transition function of the steps that meet `ok`. -/
def restrict (step : S → A → Option S) (ok : S → A → Prop) [∀ s a, Decidable (ok s a)]
    (s : S) (a : A) : Option S :=
  if ok s a then step s a else none

variable {as : List A} {s t : S} {step : S → A → Option S} {ok : S → A → Prop}

lemma Run.of_exec_forall (hok : ∀ a ∈ as, ∀ s, ok s a) (h : exec step s as = some t) :
    Run step ok s t := by
  induction as generalizing s with
  | nil =>
    simp only [exec, Option.some.injEq] at h
    exact h ▸ Run.refl s
  | cons a as ih =>
    simp only [exec, Option.bind_eq_some_iff] at h
    obtain ⟨u, hu, h⟩ := h
    obtain ⟨ha, has⟩ := List.forall_mem_cons.mp hok
    exact ((Run.refl s).tail (ha s) hu).trans (ih has h)

lemma Run.of_exec_any (h : exec step s as = some t) : Run step Any s t :=
  Run.of_exec_forall (fun _ _ _ => trivial) h

lemma Run.of_exec [∀ s a, Decidable (ok s a)] (h : exec (restrict step ok) s as = some t) :
    Run step ok s t := by
  refine Relation.ReflTransGen.mono (fun s t hst => ?_) s t (Run.of_exec_any h)
  obtain ⟨a, -, hstep⟩ := hst
  exact ⟨a, Option.ite_none_right_eq_some.mp hstep⟩

lemma exec_append (step : S → A → Option S) (s : S) (as bs : List A) :
    exec step s (as ++ bs) = (exec step s as).bind fun t => exec step t bs := by
  induction as generalizing s with
  | nil => rfl
  | cons a as ih =>
    cases h : step s a with
    | none => simp [exec, h]
    | some t => simp [exec, h, ih]

lemma Run.exists_of_exec [∀ s a, Decidable (ok s a)] {X : Type*} {f : S → Option X} {x : X}
    (h : (exec (restrict step ok) s as).bind f = some x) :
    ∃ t, exec (restrict step ok) s as = some t ∧ Run step ok s t ∧ f t = some x := by
  obtain ⟨t, ht, hf⟩ := Option.bind_eq_some_iff.mp h
  exact ⟨t, ht, Run.of_exec ht, hf⟩

lemma foldlM_ends {f : S → A → Option S} (hf : ∀ s a, I s → ∃ t, f s a = some t ∧ I t)
    (as : List A) (hs : I s) :
    ∃ t, as.foldlM f s = some t ∧ I t := by
  induction as generalizing s with
  | nil => exact ⟨s, rfl, hs⟩
  | cons a as ih =>
    obtain ⟨t, ht, hi⟩ := hf s a hs
    obtain ⟨u, hu, hi⟩ := ih hi
    exact ⟨u, by rw [List.foldlM_cons, ht]; exact hu, hi⟩

/-- The system with a history variable: `note` computes its next value from the step taken. -/
def watch (step : S → A → Option S) (note : G → S → A → S → G) (p : S × G) (a : A) :
    Option (S × G) :=
  (step p.1 a).map fun t => (t, note p.2 p.1 a t)

lemma watch_eq_some {note : G → S → A → S → G} {p q : S × G} {a : A} :
    watch step note p a = some q ↔ step p.1 a = some q.1 ∧ q.2 = note p.2 p.1 a q.1 := by
  simp only [watch, Option.map_eq_some_iff]
  constructor
  · rintro ⟨t, ht, rfl⟩
    exact ⟨ht, rfl⟩
  · rintro ⟨ht, hg⟩
    exact ⟨q.1, ht, Prod.ext rfl hg.symm⟩

end Fino.Lib
