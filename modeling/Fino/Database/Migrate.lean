import Mathlib.Data.List.Induction
import Mathlib.Data.List.Sort
import Fino.Lib.OrderedMap
import Fino.Lib.Outcome
import Fino.Lib.Transition

/-!
# The history of migrations

`migrate`, `rollback` and `getAppliedMigrations` of `js/database/migrate.ts`. Every body that runs
leaves a row in a table to which rows are only added, and which migrations are applied is found by
replaying the rows `ORDER BY applied_at`. Rows of the same time come in any order, and the times are
readings of a clock that may stand still or go back, so an `up` may be replayed after the `down`
that reverted it (`reverted_migration_still_applied`). If each row is later than the earlier ones of
its migration (`Later`), the replay finds the bodies that ran last (`history_faithful`).
-/

namespace Fino.Database

open Lib List Outcome

inductive Direction
  | up | down
  deriving DecidableEq

/-- `Migration`, with what `checksumFor` returns for `up`, and whether `down` is defined. -/
structure Migration (I : Type) where
  id : I
  checksum : String
  down : Bool

/-- `MigrationRecord`; ids are of any type with an order. -/
structure MigrationRecord (I : Type) where
  id : I
  checksum : String
  direction : Direction
  appliedAt : ℤ
  deriving DecidableEq

/-- The body whose run the row records. -/
def MigrationRecord.body {I : Type} (r : MigrationRecord I) : I × Direction := (r.id, r.direction)

/-- The errors that are thrown as `MigrationError`, with the id in their text. -/
inductive MigrationError (I : Type)
  | duplicate (id : I)
  | checksumChanged (id : I)
  | noDefinition (id : I)
  | noDown (id : I)
  deriving DecidableEq

variable {I : Type} [LinearOrder I]

/-- One turn of the loop of `activeRecords`. -/
def replay (active : OrderedMap I (MigrationRecord I)) (r : MigrationRecord I) :
    OrderedMap I (MigrationRecord I) :=
  match r.direction with
  | .down => active.erase r.id
  | .up => active.set r.id r

def activeMap (history : List (MigrationRecord I)) : OrderedMap I (MigrationRecord I) :=
  history.foldl replay ∅

def activeRecords (history : List (MigrationRecord I)) : List (MigrationRecord I) :=
  (activeMap history).entries.map (·.2)

/-- `getAppliedMigrations`, for the rows that `readHistory` returns. -/
def getAppliedMigrations (history : List (MigrationRecord I)) : List (MigrationRecord I) :=
  activeRecords history

/-- The loop of `sortedUnique`. -/
def checkUnique (seen : List I) : List (Migration I) → Except (MigrationError I) Unit
  | [] => .ok ()
  | m :: ms => if m.id ∈ seen then .error (.duplicate m.id) else checkUnique (m.id :: seen) ms

def sortedUnique (ms : List (Migration I)) : Except (MigrationError I) (List (Migration I)) := do
  checkUnique [] ms
  return ms.insertionSort (·.id ≤ ·.id)

/-- The loop of `planMigrations`. -/
def pending (applied : List (MigrationRecord I)) :
    List (Migration I) → Except (MigrationError I) (List (Migration I))
  | [] => .ok []
  | m :: ms =>
    match applied.find? (·.id = m.id) with
    | none => return m :: (← pending applied ms)
    | some r =>
      if r.checksum ≠ m.checksum then .error (.checksumChanged m.id) else pending applied ms

def planMigrations (history : List (MigrationRecord I)) (ms : List (Migration I)) :
    Except (MigrationError I) (List (MigrationRecord I) × List (Migration I)) := do
  let applied := activeRecords history
  return (applied, ← pending applied (← sortedUnique ms))

/-- `migrate`: the rows that it adds, and what it throws. `clock` has the readings of `record`;
where there are no more, the next transaction fails. -/
def migrate (history : List (MigrationRecord I)) (ms : List (Migration I)) (clock : List ℤ) :
    List (MigrationRecord I) × Option (MigrationError I) :=
  match planMigrations history ms with
  | .error e => ([], some e)
  | .ok plan => (plan.2.zipWith (fun m t => ⟨m.id, m.checksum, .up, t⟩) clock, none)

/-- The loop of `rollback`. -/
def revert (ms : List (Migration I)) : List (MigrationRecord I) → List ℤ →
    List (MigrationRecord I) × Option (MigrationError I)
  | [], _ => ([], none)
  | r :: active, clock =>
    match ms.find? (·.id = r.id) with
    | none => ([], some (.noDefinition r.id))
    | some m =>
      if m.down then
        match clock with
        | [] => ([], none)
        | t :: clock =>
          let rest := revert ms active clock
          (⟨m.id, r.checksum, .down, t⟩ :: rest.1, rest.2)
      else ([], some (.noDown r.id))

/-- `active.slice(0, steps)`. -/
def slice (l : List (MigrationRecord I)) (steps : ℤ) : List (MigrationRecord I) :=
  l.take (if 0 ≤ steps then steps.toNat else l.length - steps.natAbs)

/-- `rollback`: the rows that it adds, and what it throws. -/
def rollback (history : List (MigrationRecord I)) (ms : List (Migration I)) (steps : ℤ)
    (clock : List ℤ) : List (MigrationRecord I) × Option (MigrationError I) :=
  match sortedUnique ms with
  | .error e => ([], some e)
  | .ok ms => revert ms (slice ((activeRecords history).insertionSort (·.id ≥ ·.id)) steps) clock

/-! ### Runs -/

/-- The rows of the table and the bodies that have run, in the order in which this happened. -/
structure State (I : Type) where
  rows : List (MigrationRecord I)
  ran : List (I × Direction)

/-- A transaction: a body runs, and its row is inserted. -/
def commit (db : State I) (r : MigrationRecord I) : State I :=
  ⟨db.rows ++ [r], db.ran ++ [r.body]⟩

/-- `readHistory` may return the rows in this order. -/
def Reads (rows history : List (MigrationRecord I)) : Prop :=
  history.Perm rows ∧ history.Pairwise (·.appliedAt ≤ ·.appliedAt)

instance (rows history : List (MigrationRecord I)) : Decidable (Reads rows history) :=
  inferInstanceAs (Decidable (_ ∧ _))

/-- A call, with the rows as it reads them and the readings of the clock. -/
inductive Call (I : Type)
  | migrate (history : List (MigrationRecord I)) (ms : List (Migration I)) (clock : List ℤ)
  | rollback (history : List (MigrationRecord I)) (ms : List (Migration I)) (steps : ℤ)
      (clock : List ℤ)

def Call.history : Call I → List (MigrationRecord I)
  | .migrate history _ _ | .rollback history _ _ _ => history

/-- The rows that a call adds. -/
def Call.added : Call I → List (MigrationRecord I)
  | .migrate history ms clock => (Database.migrate history ms clock).1
  | .rollback history ms steps clock => (Database.rollback history ms steps clock).1

def step (db : State I) (c : Call I) : Option (State I) :=
  if Reads db.rows c.history then some (c.added.foldl commit db) else none

variable (ran : List (I × Direction))

/-- The direction of the body of the migration that ran last. -/
def lastBody (id : I) : Option Direction :=
  ((ran.filter (·.1 = id)).getLast?).map (·.2)

/-- An `up` runs only for a migration that is not applied, and a `down` only for one that is. -/
def Alternates : Prop :=
  ∀ before id d after, ran = before ++ (id, d) :: after →
    (lastBody before id = some .up ↔ d = .down)

/-- The migrations whose turn comes in a call, each with the reading of the clock: those that are
pending, or those to be reverted up to the first without a `down`. -/
def Call.turns : Call I → List (I × ℤ)
  | .migrate history ms clock =>
    match planMigrations history ms with
    | .error _ => []
    | .ok plan => (plan.2.map (·.id)).zip clock
  | .rollback history ms steps clock =>
    match sortedUnique ms with
    | .error _ => []
    | .ok ms =>
      let active := slice ((activeRecords history).insertionSort (·.id ≥ ·.id)) steps
      ((active.takeWhile fun r => (ms.find? (·.id = r.id)).any (·.down)).map (·.id)).zip clock

/-- In the turn of a migration the clock is past the rows of that migration. -/
def Later (db : State I) (c : Call I) : Prop :=
  ∀ turn ∈ c.turns, ∀ row ∈ db.rows, row.id = turn.1 → row.appliedAt < turn.2

instance (db : State I) (c : Call I) : Decidable (Later db c) :=
  inferInstanceAs (Decidable (∀ turn ∈ c.turns, ∀ row ∈ db.rows, _ → _))

/-! ### Replaying the history -/

section Replay

variable {rows history active added : List (MigrationRecord I)} {ms todo : List (Migration I)}

lemma lastBody_concat (b : I × Direction) (id : I) :
    lastBody (ran ++ [b]) id = if b.1 = id then some b.2 else lastBody ran id := by
  unfold lastBody
  split_ifs with h <;> simp [h]

lemma lastBody_map (rows : List (MigrationRecord I)) (id : I) :
    lastBody (rows.map (·.body)) id = ((rows.filter (·.id = id)).getLast?).map (·.direction) := by
  unfold lastBody
  rw [filter_map, getLast?_map, Option.map_map]
  rfl

section

variable (history : List (MigrationRecord I))

/-- The replay has the last row of a migration, if that is an `up`. -/
lemma lookup_activeMap (id : I) :
    (activeMap history).lookup id =
      ((history.filter (·.id = id)).getLast?).filter (·.direction = .up) := by
  induction history using reverseRecOn with
  | nil => rfl
  | append_singleton history r ih =>
    rw [activeMap, foldl_append, ← activeMap, filter_append]
    simp only [foldl_cons, foldl_nil, replay]
    by_cases h : id = r.id
    · subst h
      cases hd : r.direction with
      | up => simp [AList.lookup_set, Option.filter, hd]
      | down => simp [Option.filter, hd]
    · cases r.direction with
      | up => simp [AList.lookup_set, ih, h, Ne.symm h]
      | down => simp [ih, h, Ne.symm h]

lemma map_id_activeRecords : (activeRecords history).map (·.id) = (activeMap history).keys := by
  unfold activeRecords AList.keys keys
  rw [map_map]
  refine map_congr_left fun e he => ?_
  have hlast := AList.mem_lookup_iff.mpr he
  rw [lookup_activeMap] at hlast
  have hmem := mem_of_mem_getLast? (Option.mem_filter_iff.mp hlast).1
  exact of_decide_eq_true (mem_filter.mp hmem).2

lemma mem_map_id_activeRecords (id : I) :
    id ∈ (activeRecords history).map (·.id) ↔ lastBody (history.map (·.body)) id = some .up := by
  rw [map_id_activeRecords, ← AList.mem_keys, ← AList.lookup_isSome, lookup_activeMap, lastBody_map]
  cases (history.filter (·.id = id)).getLast? <;> simp

end

/-- Where the rows of a migration are later and later, they are read in the order of insertion. -/
lemma Reads.lastBody_eq (h : Reads rows history)
    (hrows : rows.Pairwise fun a b => a.id = b.id → a.appliedAt < b.appliedAt) (id : I) :
    lastBody (history.map (·.body)) id = lastBody (rows.map (·.body)) id := by
  have hlt : (rows.filter (·.id = id)).Pairwise (·.appliedAt < ·.appliedAt) := by
    refine (hrows.filter _).imp_of_mem fun ha hb hab => hab ?_
    rw [of_decide_eq_true (mem_filter.mp ha).2, of_decide_eq_true (mem_filter.mp hb).2]
  have heq : history.filter (·.id = id) = rows.filter (·.id = id) := by
    refine (h.1.filter _).eq_of_pairwise (fun a b ha hb hab hba => ?_) (h.2.filter _)
      (hlt.imp le_of_lt)
    -- No two rows of the migration are of the same time.
    have hnodup : ((rows.filter (·.id = id)).map (·.appliedAt)).Nodup :=
      (pairwise_map.mpr hlt).imp ne_of_lt
    exact inj_on_of_nodup_map hnodup (((h.1.filter _).mem_iff).mp ha) hb (le_antisymm hab hba)
  rw [lastBody_map, lastBody_map, heq]

/-! ### What a call adds -/

lemma nodup_of_checkUnique {seen : List I} {u : Unit} (h : checkUnique seen ms = .ok u) :
    (ms.map (·.id)).Nodup ∧ ∀ id ∈ ms.map (·.id), id ∉ seen := by
  induction ms generalizing seen with
  | nil => simp
  | cons m ms ih =>
    obtain ⟨hm, h⟩ := ite_error_eq_ok.mp h
    obtain ⟨hnodup, hseen⟩ := ih h
    refine ⟨nodup_cons.mpr ⟨fun hmem => hseen _ hmem mem_cons_self, hnodup⟩, ?_⟩
    refine forall_mem_cons.mpr ⟨hm, fun id hid => ?_⟩
    exact fun hmem => hseen id hid (mem_cons_of_mem _ hmem)

lemma nodup_of_sortedUnique {sorted : List (Migration I)} (h : sortedUnique ms = .ok sorted) :
    (sorted.map (·.id)).Nodup := by
  obtain ⟨_, hunique, hsorted⟩ := bind_eq_ok.mp h
  rw [← Except.ok.inj hsorted, ((perm_insertionSort _ ms).map _).nodup_iff]
  exact (nodup_of_checkUnique hunique).1

lemma pending_spec (h : pending active ms = .ok todo) :
    todo.Sublist ms ∧ ∀ m ∈ todo, m.id ∉ active.map (·.id) := by
  induction ms generalizing todo with
  | nil =>
    cases h
    simp
  | cons m ms ih =>
    rw [pending] at h
    split at h
    · next hnone =>
      obtain ⟨rest, hrest, h⟩ := bind_eq_ok.mp h
      obtain ⟨hsub, hnew⟩ := ih hrest
      rw [← Except.ok.inj h]
      exact ⟨hsub.cons_cons m, forall_mem_cons.mpr ⟨by simpa using hnone, hnew⟩⟩
    · obtain ⟨hsub, hnew⟩ := ih (ite_error_eq_ok.mp h).2
      exact ⟨hsub.cons m, hnew⟩

lemma zipWith_up_spec {I : Type} (todo : List (Migration I)) (clock : List ℤ) :
    (todo.zipWith (fun m t => (⟨m.id, m.checksum, .up, t⟩ : MigrationRecord I)) clock).map
      (·.body) <+: (todo.map (·.id)).map (·, .up) := by
  induction todo generalizing clock with
  | nil => simp
  | cons m todo ih =>
    cases clock with
    | nil => simp
    | cons t clock => simpa [MigrationRecord.body] using ih clock

lemma revert_spec (ms : List (Migration I)) (active : List (MigrationRecord I)) (clock : List ℤ) :
    (revert ms active clock).1.map (·.body) <+: (active.map (·.id)).map (·, .down) := by
  induction active generalizing clock with
  | nil => simp [revert]
  | cons r active ih =>
    unfold revert
    cases hf : ms.find? (·.id = r.id) with
    | none => simp
    | some m =>
      have hid : m.id = r.id := by simpa using find?_some hf
      dsimp only
      split_ifs
      · cases clock with
        | nil => simp
        | cons t clock => simpa [MigrationRecord.body, hid] using ih clock
      · simp

lemma bodies_spec {I : Type} {added active : List (MigrationRecord I)} {ids : List I}
    {d : Direction} (hbodies : added.map (·.body) <+: ids.map (·, d)) (hids : ids.Nodup)
    (hd : ∀ id ∈ ids, id ∈ active.map (·.id) ↔ d = .down) :
    (added.map (·.id)).Nodup ∧ ∀ r ∈ added, (r.id ∈ active.map (·.id) ↔ r.direction = .down) := by
  constructor
  · have hsub := hbodies.sublist.map Prod.fst
    rw [map_map, map_map] at hsub
    exact hsub.nodup (by simpa [Function.comp_def] using hids)
  · intro r hr
    obtain ⟨id, hid, heq⟩ := mem_map.mp (hbodies.subset (mem_map_of_mem hr))
    obtain ⟨rfl, rfl⟩ := Prod.mk.inj heq
    exact hd _ hid

/-- A call runs bodies of different migrations, an `up` for those that the replay finds inactive and
a `down` for those that it finds active. -/
lemma Call.added_spec (c : Call I) :
    (c.added.map (·.id)).Nodup ∧ ∀ r ∈ c.added,
      (r.id ∈ (activeRecords c.history).map (·.id) ↔ r.direction = .down) := by
  cases c with
  | migrate history ms clock =>
    unfold Call.added Call.history Database.migrate
    cases hplan : planMigrations history ms with
    | error e => simp [hplan]
    | ok plan =>
      obtain ⟨sorted, hsorted, h⟩ := bind_eq_ok.mp hplan
      obtain ⟨todo, htodo, h⟩ := bind_eq_ok.mp h
      obtain ⟨hsub, hnew⟩ := pending_spec htodo
      simp only [hplan, ← Except.ok.inj h]
      refine bodies_spec (zipWith_up_spec todo clock)
        ((hsub.map _).nodup (nodup_of_sortedUnique hsorted)) fun id hid => ?_
      obtain ⟨m, hm, rfl⟩ := mem_map.mp hid
      simpa using hnew m hm
  | rollback history ms steps clock =>
    unfold Call.added Call.history Database.rollback
    cases hs : sortedUnique ms with
    | error e => simp [hs]
    | ok sorted =>
      have hperm := perm_insertionSort (·.id ≥ ·.id) (activeRecords history)
      have hsub : (slice _ steps).Sublist _ :=
        take_sublist _ ((activeRecords history).insertionSort (·.id ≥ ·.id))
      replace hsub := hsub.map (·.id)
      simp only [hs]
      refine bodies_spec (revert_spec sorted _ clock) (hsub.nodup ?_) fun id hid => ?_
      · rw [(hperm.map _).nodup_iff, map_id_activeRecords]
        exact AList.keys_nodup _
      · simpa using (hperm.map _).subset (hsub.subset hid)

end Replay

/-! ### Every run -/

lemma Alternates.concat {ran : List (I × Direction)} (h : Alternates ran) {b : I × Direction}
    (hb : lastBody ran b.1 = some .up ↔ b.2 = .down) : Alternates (ran ++ [b]) := by
  intro before id d after heq
  rcases eq_nil_or_concat after with rfl | ⟨after, b', rfl⟩
  · obtain ⟨rfl, hlast⟩ := append_inj' heq rfl
    cases hlast
    exact hb
  · rw [concat_eq_append, ← cons_append, ← append_assoc] at heq
    exact h before id d after (append_inj' heq rfl).1

/-- What runs keep: the rows record the bodies that ran, later and later for each migration. -/
structure Faithful (db : State I) : Prop where
  recorded : db.ran = db.rows.map (·.body)
  later : db.rows.Pairwise fun a b => a.id = b.id → a.appliedAt < b.appliedAt
  alternates : Alternates db.ran

variable {db : State I}

lemma Faithful.commit (h : Faithful db) {r : MigrationRecord I}
    (hlater : ∀ row ∈ db.rows, row.id = r.id → row.appliedAt < r.appliedAt)
    (hr : lastBody db.ran r.id = some .up ↔ r.direction = .down) : Faithful (commit db r) := by
  refine ⟨?_, ?_, h.alternates.concat hr⟩
  · simp [Database.commit, h.recorded]
  · exact pairwise_append.mpr ⟨h.later, pairwise_singleton _ _, by simpa using hlater⟩

/-- The bodies of one call are of different migrations, so none of them changes what is asked of the
next. -/
lemma Faithful.commits {added : List (MigrationRecord I)} (h : Faithful db)
    (hnodup : (added.map (·.id)).Nodup)
    (hlater : ∀ r ∈ added, ∀ row ∈ db.rows, row.id = r.id → row.appliedAt < r.appliedAt)
    (hadded : ∀ r ∈ added, (lastBody db.ran r.id = some .up ↔ r.direction = .down)) :
    Faithful (added.foldl Database.commit db) := by
  induction added generalizing db with
  | nil => exact h
  | cons r added ih =>
    obtain ⟨hlater₀, hlater⟩ := forall_mem_cons.mp hlater
    obtain ⟨hr, hadded⟩ := forall_mem_cons.mp hadded
    obtain ⟨hnew, hnodup⟩ := nodup_cons.mp hnodup
    have hne : ∀ r' ∈ added, r.id ≠ r'.id := fun r' hr' heq =>
      hnew (mem_map.mpr ⟨r', hr', heq.symm⟩)
    refine ih (h.commit hlater₀ hr) hnodup (fun r' hr' row hrow hid => ?_) fun r' hr' => ?_
    · rcases mem_append.mp hrow with hrow | hrow
      · exact hlater r' hr' row hrow hid
      · exact absurd (mem_singleton.mp hrow ▸ hid) (hne r' hr')
    · rw [Database.commit, lastBody_concat, if_neg (show r.body.1 ≠ r'.id from hne r' hr')]
      exact hadded r' hr'

/-- The loop of `rollback` goes on to the first migration without a `down`. -/
lemma map_revert (ms : List (Migration I)) (active : List (MigrationRecord I)) (clock : List ℤ) :
    (revert ms active clock).1.map (fun r => (r.id, r.appliedAt)) =
      ((active.takeWhile fun r => (ms.find? (·.id = r.id)).any (·.down)).map (·.id)).zip clock := by
  induction active generalizing clock with
  | nil => rfl
  | cons r active ih =>
    rw [revert, takeWhile_cons]
    cases hfind : ms.find? (·.id = r.id) with
    | none => rfl
    | some m =>
      have hid : m.id = r.id := by simpa using find?_some hfind
      by_cases hdown : m.down
      · cases clock with
        | nil => simp [hdown]
        | cons t clock => simp [hdown, hid, ih]
      · simp [hdown]

/-- The rows that a call adds have the times of the turns. -/
lemma Call.map_added (c : Call I) : c.added.map (fun r => (r.id, r.appliedAt)) = c.turns := by
  cases c with
  | migrate history ms clock =>
    rw [added, Database.migrate, turns]
    cases planMigrations history ms with
    | error e => rfl
    | ok plan => simp [zip, zipWith_map_left, map_zipWith]
  | rollback history ms steps clock =>
    rw [added, Database.rollback, turns]
    cases sortedUnique ms with
    | error e => rfl
    | ok ms => exact map_revert ms _ clock

lemma Faithful.step {db' : State I} {c : Call I} (h : Faithful db) (hc : Later db c)
    (hstep : Database.step db c = some db') : Faithful db' := by
  unfold Database.step at hstep
  split_ifs at hstep with hreads
  obtain ⟨hnodup, hadded⟩ := c.added_spec
  rw [← Option.some.inj hstep]
  have hlater : ∀ r ∈ c.added, ∀ row ∈ db.rows, row.id = r.id → row.appliedAt < r.appliedAt :=
    fun r hr => hc _ (c.map_added ▸ mem_map_of_mem hr)
  refine h.commits hnodup hlater fun r hr => ?_
  rw [← hadded r hr, mem_map_id_activeRecords, hreads.lastBody_eq h.later, h.recorded]

/-- In every run in which each row is later than the earlier ones of its migration, the applied
migrations are those whose last body was `up`, whatever the order in which equal times are read; no
`up` runs for an applied migration, and no `down` for another. -/
theorem history_faithful {db : State I} (h : Run step Later ⟨[], []⟩ db)
    {history : List (MigrationRecord I)} (hreads : Reads db.rows history) :
    (∀ id, (∃ r ∈ getAppliedMigrations history, r.id = id) ↔ lastBody db.ran id = some .up) ∧
      Alternates db.ran := by
  have hinit : Faithful (⟨[], []⟩ : State I) := ⟨rfl, List.Pairwise.nil, by simp [Alternates]⟩
  have hdb : Faithful db := h.invariant (fun _ _ _ hi hc hs => hi.step hc hs) hinit
  refine ⟨fun id => ?_, hdb.alternates⟩
  have hmem := mem_map_id_activeRecords history id
  rw [mem_map, hreads.lastBody_eq hdb.later, ← hdb.recorded] at hmem
  exact hmem

/-- Two migrations are applied, one is rolled back and applied again. -/
theorem reapplied_migration_faithful :
    ∃ db, Run step Later (⟨[], []⟩ : State ℕ) db ∧
      db.ran = [(1, .up), (2, .up), (2, .down), (2, .up)] ∧
      ∃ history, Reads db.rows history ∧ (getAppliedMigrations history).map (·.id) = [1, 2] ∧
        Alternates db.ran := by
  have hdb : ((exec (restrict step Later) (⟨[], []⟩ : State ℕ)
      [.migrate [] [⟨2, "b", true⟩, ⟨1, "a", true⟩] [5, 5],
        .rollback [⟨2, "b", .up, 5⟩, ⟨1, "a", .up, 5⟩] [⟨2, "b", true⟩] 1 [6],
        .migrate [⟨1, "a", .up, 5⟩, ⟨2, "b", .up, 5⟩, ⟨2, "b", .down, 6⟩] [⟨2, "b", true⟩]
          [7]]).bind fun db => some (db.ran, db.rows)) = some
        ([(1, .up), (2, .up), (2, .down), (2, .up)],
          [⟨1, "a", .up, 5⟩, ⟨2, "b", .up, 5⟩, ⟨2, "b", .down, 6⟩, ⟨2, "b", .up, 7⟩]) := by
    decide +kernel
  obtain ⟨db, -, hrun, heq⟩ := Run.exists_of_exec hdb
  obtain ⟨hran, hrows⟩ := Prod.mk.inj (Option.some.inj heq)
  have hreads : Reads db.rows db.rows := by
    rw [hrows]
    decide +kernel
  refine ⟨db, hrun, hran, db.rows, hreads, ?_, (history_faithful hrun hreads).2⟩
  rw [hrows]
  decide +kernel

/-- A migration is applied at the time 5 and rolled back at `t`; the next `rollback` reads the rows
in the other order. -/
def revertedAt (t : ℤ) : List (Call ℕ) :=
  [.migrate [] [⟨1, "a", true⟩] [5], .rollback [⟨1, "a", .up, 5⟩] [⟨1, "a", true⟩] 1 [t],
    .rollback [⟨1, "a", .down, t⟩, ⟨1, "a", .up, 5⟩] [⟨1, "a", true⟩] 1 [9]]

/-- If the clock stands still or goes back before the rollback, the migration is still found
applied, and its `down` runs a second time. -/
theorem reverted_migration_still_applied :
    (exec step ⟨[], []⟩ (revertedAt 5)).map (·.ran) = some [(1, .up), (1, .down), (1, .down)] ∧
      (exec step ⟨[], []⟩ (revertedAt 3)).map (·.ran) = some [(1, .up), (1, .down), (1, .down)] ∧
      (getAppliedMigrations [⟨1, "a", .down, 3⟩, ⟨1, "a", .up, 5⟩]).map (·.id) = [1] := by
  refine ⟨?_, ?_, ?_⟩ <;> decide +kernel

end Fino.Database
