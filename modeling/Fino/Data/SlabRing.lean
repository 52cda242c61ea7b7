import Fino.Lib.Transition
import Mathlib.Data.List.Perm.Basic

/-!
# The slots of shared memory

`SharedSlabRing` and `processBatch` of `js/data/dataset.ts`. A batch is given a slot, at once or
when one is released, starts a worker, and ends with a descriptor, which the consumer releases, or
with an error. `new Realm` stands before the `try` whose `finally` releases the slot: if it throws,
the slot is lost (`failed_start_loses_slot`).
-/

namespace Fino.Dataset

open Lib List

/-- What has a slot is a batch, by its number, and the slot. -/
structure SharedSlabRing where
  free : List ℕ
  /-- The batches that are parked in `acquire`. -/
  waiters : List ℕ
  /-- The batches that were given a slot and have not started a worker. -/
  granted : List (ℕ × ℕ)
  working : List (ℕ × ℕ)
  /-- The descriptors that are not released. -/
  descriptors : List (ℕ × ℕ)
  aborted : Bool
deriving DecidableEq

namespace SharedSlabRing

def create (count : ℕ) : SharedSlabRing := ⟨range count, [], [], [], [], false⟩

def acquire (s : SharedSlabRing) (sequence : ℕ) : SharedSlabRing :=
  if s.aborted then s
  else
    match s.free with
    | slot :: free => { s with free := free, granted := (sequence, slot) :: s.granted }
    | [] => { s with waiters := s.waiters ++ [sequence] }

def release (s : SharedSlabRing) (slot : ℕ) : SharedSlabRing :=
  match s.waiters with
  | [] => { s with free := s.free ++ [slot] }
  | waiter :: waiters => { s with waiters := waiters, granted := (waiter, slot) :: s.granted }

inductive Action
  | acquire (sequence : ℕ)
  /-- `new Realm`, which may throw. -/
  | start (held : ℕ × ℕ) (ok : Bool)
  /-- The worker has written a batch that fits its slot, or there is an error or an abort. -/
  | settle (held : ℕ × ℕ) (ok : Bool)
  | release (held : ℕ × ℕ)
  | abort

def step (s : SharedSlabRing) : Action → Option SharedSlabRing
  | .acquire sequence => some (s.acquire sequence)
  | .start held ok =>
    if held ∈ s.granted then
      some { s with
        granted := s.granted.erase held
        working := if ok then held :: s.working else s.working }
    else none
  | .settle held ok =>
    if held ∈ s.working then
      let s' := { s with working := s.working.erase held }
      some (if ok then { s' with descriptors := held :: s.descriptors } else s'.release held.2)
    else none
  | .release held =>
    -- The second call does nothing.
    some (if held ∈ s.descriptors then
      release { s with descriptors := s.descriptors.erase held } held.2 else s)
  | .abort => some { s with waiters := [], aborted := true }

/-- The slots, free, with a batch in flight or with a descriptor. -/
def slots (s : SharedSlabRing) : List ℕ :=
  s.free ++ (s.granted ++ s.working ++ s.descriptors).map Prod.snd

/-- The slot that an action loses. -/
def lost : Action → List ℕ
  | .start held false => [held.2]
  | _ => []

variable {s t : SharedSlabRing}

lemma count_release (s : SharedSlabRing) (slot x : ℕ) :
    (s.release slot).slots.count x = s.slots.count x + [slot].count x := by
  unfold release
  split <;> simp [slots, count_cons] <;> omega

lemma count_erase_held {l : List (ℕ × ℕ)} {held : ℕ × ℕ} (h : held ∈ l) (x : ℕ) :
    (l.map Prod.snd).count x = ((l.erase held).map Prod.snd).count x + [held.2].count x := by
  rw [((perm_cons_erase h).map Prod.snd).count_eq, map_cons, ← singleton_append, count_append,
    Nat.add_comm]

/-- A step moves slots. It makes none, and loses one if a worker fails to start. -/
lemma count_step {a : Action} (h : s.step a = some t) (x : ℕ) :
    (lost a ++ t.slots).count x = s.slots.count x := by
  cases a with
  | acquire sequence =>
    cases h
    unfold acquire
    split_ifs
    · rfl
    · split <;> simp [slots, lost, count_cons, *]
      omega
  | start held ok =>
    obtain ⟨hmem, h⟩ := Option.ite_none_right_eq_some.mp h
    cases h
    cases ok <;> simp [slots, lost, count_erase_held hmem x, count_cons] <;> omega
  | settle held ok =>
    obtain ⟨hmem, h⟩ := Option.ite_none_right_eq_some.mp h
    cases h
    cases ok with
    | true =>
      simp [slots, lost, count_erase_held hmem x, count_cons]
      omega
    | false =>
      refine (count_release _ _ x).trans ?_
      simp only [slots, map_append, count_append, count_erase_held hmem x]
      omega
  | release held =>
    cases h
    split_ifs with hmem
    · refine (count_release _ _ x).trans ?_
      simp only [slots, map_append, count_append, count_erase_held hmem x]
      omega
    · rfl
  | abort =>
    cases h
    rfl

lemma count_exec {as : List Action} (h : exec step s as = some t) (x : ℕ) :
    (as.flatMap lost ++ t.slots).count x = s.slots.count x := by
  induction as generalizing s with
  | nil =>
    cases h
    rfl
  | cons a as ih =>
    obtain ⟨u, hu, h⟩ := Option.bind_eq_some_iff.mp h
    rw [← count_step hu, flatMap_cons, append_assoc, count_append, ih h, ← count_append]

/-- After any run, each slot is in exactly one place (free, with one batch in flight or with one
descriptor) if and only if no worker failed to start. -/
theorem slots_exclusive_iff {n : ℕ} {as : List Action} (h : exec step (create n) as = some s) :
    s.slots.Perm (range n) ↔ ∀ held, .start held false ∉ as := by
  have hcreate : (create n).slots = range n := append_nil _
  have hall : (as.flatMap lost ++ s.slots).Perm (range n) :=
    perm_iff_count.mpr fun x => hcreate ▸ count_exec h x
  have hlost : as.flatMap lost = [] ↔ ∀ held, .start held false ∉ as := by
    rw [flatMap_eq_nil_iff]
    refine ⟨fun hnil held hmem => by simpa [lost] using hnil _ hmem, fun hnone a ha => ?_⟩
    unfold lost
    split
    · exact absurd ha (hnone _)
    · rfl
  rw [← hlost]
  constructor
  · intro hperm
    have hlength := hall.length_eq.trans hperm.length_eq.symm
    rw [length_append] at hlength
    exact length_eq_zero_iff.mp (by omega)
  · intro hnil
    rwa [hnil] at hall

/-- Two slots and three batches: the third is parked until the descriptor of the first is released,
and gives the slot back when its worker fails. -/
theorem released_slot_is_free :
    let as : List Action := [.acquire 0, .acquire 1, .acquire 2, .start (0, 0) true,
      .settle (0, 0) true, .release (0, 0), .start (1, 1) true, .start (2, 0) true,
      .settle (1, 1) true, .settle (2, 0) false]
    ∃ s, exec step (create 2) as = some s ∧ s.free = [0] ∧ s.descriptors = [(1, 1)] ∧
      s.slots.Perm (range 2) := by
  intro as
  have hrun : exec step (create 2) as = some ⟨[0], [], [], [], [(1, 1)], false⟩ := by decide
  exact ⟨_, hrun, rfl, rfl, (slots_exclusive_iff hrun).mpr (by simp [as])⟩

theorem failed_start_loses_slot :
    (exec step (create 1) [.acquire 0, .start (0, 0) false]).map slots = some [] := by
  decide

end SharedSlabRing

end Fino.Dataset
