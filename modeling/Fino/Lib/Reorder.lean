import Fino.Lib.OrderedMap
import Mathlib.Data.Set.Insert

/-!
# Reorder buffers

A receiver hands on numbered frames in order: an early frame is kept, and a repeated one dropped
(`Buffer.take`). A buffer is `Settled` for the frames that have arrived if it has handed on the
longest gapless run of them and keeps the others (`Settled.take`, `Settled.take_eq`). A `Hop`
remembers what was handed on, also after the buffer was thrown away.
-/

namespace Fino.Lib.Reorder

open List

/-- The number of the frame to be handed on next, and the frames that came before their turn. -/
structure Buffer (α : Type*) where
  next : ℕ
  pending : OrderedMap ℕ α

variable {α : Type*} {frame : ℕ → α} {arrived : Set ℕ} {b : Buffer α} {i : ℕ}

def Buffer.empty : Buffer α := ⟨1, ∅⟩

/-- The loop that hands on the frames whose turn it is; each turn takes one frame out. -/
def Buffer.drain : ℕ → Buffer α → Buffer α × List α
  | 0, b => (b, [])
  | fuel + 1, b =>
    match b.pending.lookup b.next with
    | none => (b, [])
    | some x =>
      let rest := drain fuel ⟨b.next + 1, b.pending.erase b.next⟩
      (rest.1, x :: rest.2)

def Buffer.take (b : Buffer α) (i : ℕ) (x : α) : Buffer α × List α :=
  if i < b.next ∨ i ∈ b.pending then (b, [])
  else
    let b' : Buffer α := ⟨b.next, b.pending.set i x⟩
    b'.drain b'.pending.keys.length

/-- The frames up to `k`, and no more, have arrived without a gap. -/
def Gapless (arrived : Set ℕ) (k : ℕ) : Prop :=
  (∀ i, 1 ≤ i → i ≤ k → i ∈ arrived) ∧ k + 1 ∉ arrived

/-- The buffer keeps the frames that have arrived and were not handed on. -/
structure Waits (frame : ℕ → α) (arrived : Set ℕ) (b : Buffer α) : Prop where
  pos : 1 ≤ b.next
  handed : ∀ i, 1 ≤ i → i < b.next → i ∈ arrived
  kept : ∀ i x, b.pending.lookup i = some x ↔ b.next ≤ i ∧ i ∈ arrived ∧ x = frame i

/-- The buffer has also handed on everything that it can. -/
structure Settled (frame : ℕ → α) (arrived : Set ℕ) (b : Buffer α) : Prop
    extends Waits frame arrived b where
  next_notMem : b.next ∉ arrived

lemma settled_empty (frame : ℕ → α) : Settled frame ∅ Buffer.empty where
  pos := le_rfl
  handed := fun i hi hlt => absurd hlt (not_lt.mpr hi)
  kept := by simp [Buffer.empty]
  next_notMem := Set.notMem_empty _

section

variable (h : Waits frame arrived b)

include h

lemma Waits.mem_pending : i ∈ b.pending ↔ b.next ≤ i ∧ i ∈ arrived := by
  rw [← AList.lookup_isSome, Option.isSome_iff_exists]
  constructor
  · rintro ⟨x, hx⟩
    obtain ⟨hle, harr, -⟩ := (h.kept i x).mp hx
    exact ⟨hle, harr⟩
  · rintro ⟨hle, harr⟩
    exact ⟨frame i, (h.kept i _).mpr ⟨hle, harr, rfl⟩⟩

lemma Waits.turn (hnext : b.next ∈ arrived) :
    Waits frame arrived ⟨b.next + 1, b.pending.erase b.next⟩ where
  pos := Nat.le_add_left 1 _
  handed := by
    intro i hi hlt
    rcases Nat.lt_succ_iff_lt_or_eq.mp hlt with hlt | rfl
    · exact h.handed i hi hlt
    · exact hnext
  kept := by
    intro i x
    rw [AList.lookup_erase_eq_ite]
    split_ifs with hi
    · simp [hi]
    · rw [h.kept]
      have hle : b.next ≤ i ↔ b.next + 1 ≤ i := by omega
      rw [hle]

lemma Waits.drain {fuel : ℕ} (hfuel : b.pending.keys.length ≤ fuel) :
    Settled frame arrived (b.drain fuel).1 ∧ b.next ≤ (b.drain fuel).1.next ∧
      (b.drain fuel).2 = (List.range' b.next ((b.drain fuel).1.next - b.next)).map frame := by
  induction fuel generalizing b with
  | zero =>
    -- Nothing is kept, so the next frame has not arrived.
    have hnil : b.pending.keys = [] := length_eq_zero_iff.mp (Nat.le_zero.mp hfuel)
    have hnext : b.next ∉ arrived := by
      intro hmem
      have hpending := h.mem_pending.mpr ⟨le_rfl, hmem⟩
      rw [AList.mem_keys, hnil] at hpending
      exact not_mem_nil hpending
    exact ⟨⟨h, hnext⟩, le_rfl, by simp [Buffer.drain]⟩
  | succ fuel ih =>
    cases hlookup : b.pending.lookup b.next with
    | none =>
      have hnext : b.next ∉ arrived := by
        intro hmem
        have hsome := (h.kept b.next _).mpr ⟨le_rfl, hmem, rfl⟩
        rw [hlookup] at hsome
        simp at hsome
      simp only [Buffer.drain, hlookup]
      exact ⟨⟨h, hnext⟩, le_rfl, by simp⟩
    | some x =>
      obtain ⟨-, hnext, rfl⟩ := (h.kept b.next x).mp hlookup
      have hlen : (b.pending.erase b.next).keys.length ≤ fuel := by
        have hmem : b.next ∈ b.pending.keys := h.mem_pending.mpr ⟨le_rfl, hnext⟩
        rw [AList.keys_erase, length_erase_of_mem hmem]
        omega
      obtain ⟨hsettled, hle, hout⟩ := ih (h.turn hnext) hlen
      simp only [Buffer.drain, hlookup]
      simp only at hle hout
      refine ⟨hsettled, by omega, ?_⟩
      -- The frame of this turn stands before those of the turns after it.
      have hsub : (Buffer.drain fuel ⟨b.next + 1, b.pending.erase b.next⟩).1.next - b.next =
          (Buffer.drain fuel ⟨b.next + 1, b.pending.erase b.next⟩).1.next - (b.next + 1) + 1 := by
        omega
      rw [hout, hsub, range'_succ, map_cons]

lemma Waits.keep (hi : ¬ (i < b.next ∨ i ∈ b.pending)) :
    Waits frame (insert i arrived) ⟨b.next, b.pending.set i (frame i)⟩ where
  pos := h.pos
  handed := fun j hj hlt => Set.mem_insert_of_mem i (h.handed j hj hlt)
  kept := by
    intro j x
    rw [AList.lookup_set]
    split_ifs with hj
    · subst hj
      have hle : b.next ≤ j := not_lt.mp fun hlt => hi (.inl hlt)
      simp [hle, eq_comm]
    · rw [h.kept, Set.mem_insert_iff, or_iff_right hj]

end

section

variable (h : Settled frame arrived b)

include h

lemma Settled.take_eq (i : ℕ) :
    b.next ≤ (b.take i (frame i)).1.next ∧ (b.take i (frame i)).2 =
      (List.range' b.next ((b.take i (frame i)).1.next - b.next)).map frame := by
  unfold Buffer.take
  split_ifs with hi
  · simp
  · exact ((h.toWaits.keep hi).drain le_rfl).2

lemma Settled.take (hpos : 1 ≤ i) : Settled frame (insert i arrived) (b.take i (frame i)).1 := by
  unfold Buffer.take
  split_ifs with hi
  · -- The frame has arrived before.
    have hmem : i ∈ arrived := by
      rcases hi with hlt | hmem
      · exact h.handed i hpos hlt
      · exact (h.mem_pending.mp hmem).2
    rw [Set.insert_eq_of_mem hmem]
    exact h
  · exact ((h.toWaits.keep hi).drain le_rfl).1

lemma Settled.gapless : Gapless arrived (b.next - 1) := by
  have hpos := h.pos
  refine ⟨fun i hi hle => h.handed i hi (by omega), ?_⟩
  rw [Nat.sub_add_cancel hpos]
  exact h.next_notMem

end

/-! ## Hops -/

/-- What was handed on is the longest gapless run of what has arrived; the buffer, while there is
one, goes on where it ends. -/
def Hop (frame : ℕ → α) (arrived : Set ℕ) (handed : List α) (buffer : Option (Buffer α)) : Prop :=
  ∃ k, Gapless arrived k ∧ handed = (List.range' 1 k).map frame ∧
    ∀ b ∈ buffer, Settled frame arrived b ∧ b.next = k + 1

variable {handed : List α} {buffer : Option (Buffer α)} {P : α → Prop}

lemma hop_start (frame : ℕ → α) : Hop frame ∅ [] none := by
  refine ⟨0, ⟨fun i hi hle => absurd hi (by omega), Set.notMem_empty _⟩, rfl, ?_⟩
  simp

lemma Hop.weaken {buffer' : Option (Buffer α)} (h : Hop frame arrived handed buffer)
    (hbuffer : ∀ b ∈ buffer', b ∈ buffer) : Hop frame arrived handed buffer' := by
  obtain ⟨k, hk, hhanded, hb⟩ := h
  exact ⟨k, hk, hhanded, fun b hmem => hb b (hbuffer b hmem)⟩

lemma Hop.take (h : Hop frame arrived handed buffer) (hpos : 1 ≤ i)
    (hlive : arrived = ∅ ∨ buffer.isSome) :
    Hop frame (insert i arrived) (handed ++ ((buffer.getD .empty).take i (frame i)).2)
      (some ((buffer.getD .empty).take i (frame i)).1) := by
  obtain ⟨k, hk, hhanded, hb⟩ := h
  -- The buffer that the frame comes to is settled, and it goes on where the run ends.
  have hbuffer :
      Settled frame arrived (buffer.getD .empty) ∧ (buffer.getD .empty).next = k + 1 := by
    cases buffer with
    | some b => exact hb b rfl
    | none =>
      obtain rfl : arrived = ∅ := hlive.resolve_right (by simp)
      have hzero : k = 0 := by
        by_contra hne
        exact Set.notMem_empty _ (hk.1 1 le_rfl (by omega))
      exact ⟨settled_empty frame, by rw [hzero]; rfl⟩
  obtain ⟨hsettled, hnext⟩ := hbuffer
  have hsettled' := hsettled.take hpos
  obtain ⟨hle, hout⟩ := hsettled.take_eq i
  generalize (buffer.getD .empty).take i (frame i) = r at hsettled' hle hout
  have hlen : r.1.next - 1 = k + (r.1.next - (k + 1)) := by omega
  refine ⟨r.1.next - 1, hsettled'.gapless, ?_, ?_⟩
  · rw [hhanded, hout, hnext, ← map_append, hlen, ← range'_append_1, Nat.add_comm 1 k]
  · intro b hmem
    obtain rfl : r.1 = b := Option.some.inj hmem
    exact ⟨hsettled', (Nat.sub_add_cancel hsettled'.pos).symm⟩

/-- All frames that are kept satisfy `P`. -/
def Buffer.All (P : α → Prop) (b : Buffer α) : Prop := ∀ i x, b.pending.lookup i = some x → P x

lemma Buffer.All.drain (fuel : ℕ) (h : b.All P) :
    (b.drain fuel).1.All P ∧ ∀ x ∈ (b.drain fuel).2, P x := by
  induction fuel generalizing b with
  | zero => exact ⟨h, by simp [Buffer.drain]⟩
  | succ fuel ih =>
    cases hlookup : b.pending.lookup b.next with
    | none => simpa [Buffer.drain, hlookup] using h
    | some x =>
      have hrest : Buffer.All P ⟨b.next + 1, b.pending.erase b.next⟩ := by
        intro i y hy
        rw [AList.lookup_erase_eq_ite] at hy
        split_ifs at hy
        exact h i y hy
      obtain ⟨hkept, hhanded⟩ := ih hrest
      simp only [Buffer.drain, hlookup]
      refine ⟨hkept, ?_⟩
      intro y hy
      rcases mem_cons.mp hy with rfl | hy
      · exact h _ _ hlookup
      · exact hhanded y hy

lemma Buffer.All.take {x : α} (h : b.All P) (i : ℕ) (hx : P x) :
    (b.take i x).1.All P ∧ ∀ y ∈ (b.take i x).2, P y := by
  unfold Buffer.take
  split_ifs with hi
  · exact ⟨h, by simp⟩
  · refine Buffer.All.drain _ fun j y hy => ?_
    rw [AList.lookup_set] at hy
    split_ifs at hy
    · exact Option.some.inj hy ▸ hx
    · exact h j y hy

end Fino.Lib.Reorder
