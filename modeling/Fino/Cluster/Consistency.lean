import Fino.Cluster.Seed
import Fino.Lib.Transition

/-!
# The parts of the registry belong together

`Ages` remembers by which call each port was registered last. The registry is `Consistent` if its
index has the ports of each node and the children of a port are those registered under it after it.

`register` does not undo an earlier call for the same port, and the child port of a `SPAWN_ACK` may
even be its parent port, whose exit then does not end (`own_child_never_exits`). If no call does
this (`Keeps`), the registry stays consistent and without cycles, and the removals end and remove
what can be reached, children first (`registry_consistent`).
-/

namespace Fino.Cluster

open Lib Option RealmRegistry Prod Lib.Forest
open Workflow (Time)
open Relation (TransGen ReflTransGen)

variable {V : Type}

/-- The arguments of a call of `register`. -/
structure Registration where
  portId : String
  parentPortId : Option String
  nodeId : String
deriving DecidableEq

namespace RealmRegistry

variable {reg reg' : RealmRegistry} {age : String → ℕ} {r : Registration} {l : List String}
  {c p : String}

/-! ## Consistent registries -/

/-- The port `c` is a child of `p`. -/
def Child (reg : RealmRegistry) (p c : String) : Prop := c ∈ reg.getChildren p

/-- The index has the ports of each node, and the children of a port are those registered under it
after it. -/
structure Consistent (reg : RealmRegistry) (age : String → ℕ) : Prop where
  byNode : ∀ n p, p ∈ (reg.byNode.lookup n).getD ∅ ↔ reg.getNodeId p = some n
  children : ∀ p c, c ∈ reg.getChildren p ↔
    reg.Registered p ∧ reg.getParentPortId c = some (some p) ∧ age p < age c

/-- No port has the empty identifier as its parent. -/
def Named (reg : RealmRegistry) : Prop := ∀ c, reg.getParentPortId c ≠ some (some "")

/-- The call leaves the port on its node and under its parent, which is another port. -/
def Keeps (reg : RealmRegistry) (r : Registration) : Prop :=
  (∀ n, reg.getNodeId r.portId = some n → n = r.nodeId) ∧
    (∀ p, reg.Child p r.portId → r.parentPortId = some p) ∧
    ∀ p, r.parentPortId = some p → p ≠ "" ∧ p ≠ r.portId

/-- The parent of a port, if it has the port as a child. -/
def link (reg : RealmRegistry) (c : String) : Option String :=
  (reg.parent c).filter fun p => c ∈ reg.getChildren p

lemma parent_eq_some (h : reg.Named) : reg.parent c = some p ↔
    reg.getParentPortId c = some (some p) := by
  rw [parent]
  cases hq : reg.getParentPortId c with
  | none => simp
  | some q =>
    rw [bind_some, truthy_eq_some, some.injEq, and_iff_left_iff_imp]
    rintro rfl rfl
    exact h c hq

lemma Consistent.linked (h : reg.Consistent age) (hnamed : reg.Named) : reg.Linked reg.link where
  forest :=
    { mem_children := by
        intro c p
        rw [link, filter_eq_some_iff, decide_eq_true_eq, parent_eq_some hnamed, iff_and_self]
        exact fun hc => ((h.children p c).mp hc).2.1
      nodup := nodup_getChildren reg
      ranked := by
        refine ⟨age, fun c p hp => ?_⟩
        rw [link, filter_eq_some_iff, decide_eq_true_eq] at hp
        exact ((h.children p c).mp hp.2).2.2 }
  parents := fun c p hp => (filter_eq_some_iff.mp hp).1
  byNode := h.byNode

variable {link : String → Option String}

lemma Linked.swap_child (h : reg.Linked link) :
    (fun x y => link x = some y) = Function.swap reg.Child := by
  funext x y
  exact propext h.forest.mem_children.symm

lemma Linked.below_iff (h : reg.Linked link) {x r : String} :
    Below link x r ↔ ReflTransGen reg.Child r x := by
  rw [Below, h.swap_child, Relation.reflTransGen_swap]

lemma Linked.descends_iff (h : reg.Linked link) {x r : String} :
    Descends link x r ↔ TransGen reg.Child r x := by
  rw [Descends, h.swap_child, Relation.transGen_swap]

lemma Consistent.register {k : ℕ} (h : reg.Consistent age) (hk : ∀ x, age x ≤ k)
    (hkeeps : reg.Keeps r) : (reg.register r.portId r.parentPortId r.nodeId).Consistent
      fun x => if x = r.portId then k + 1 else age x where
  byNode := byNode_register h.byNode hkeeps.1
  children := by
    obtain ⟨-, hparents, hparent⟩ := hkeeps
    intro p c
    have htruthy : truthy r.parentPortId = some p ↔ r.parentPortId = some p :=
      truthy_eq_some.trans (and_iff_left_of_imp fun hp => (hparent p hp).1)
    have hregistered : (reg.register r.portId r.parentPortId r.nodeId).Registered p ↔
        p = r.portId ∨ reg.Registered p := by
      rw [registered_iff, owner_register, registered_iff]
      split_ifs with hp <;> simp [hp]
    have hid : (reg.register r.portId r.parentPortId r.nodeId).getParentPortId c =
        if c = r.portId then some r.parentPortId else reg.getParentPortId c := by
      rw [getParentPortId_eq, owner_register, getParentPortId_eq]
      split_ifs <;> rfl
    rw [mem_getChildren_register, htruthy, hregistered, hid]
    by_cases hc : c = r.portId
    · -- The port itself is now a child of its parent, if that is registered.
      rw [if_pos hc, if_pos hc, some.injEq]
      constructor
      · rintro (⟨-, hold⟩ | ⟨hp, -, hreg⟩)
        · have hp := hparents p (hc ▸ hold)
          refine ⟨.inr (registered_of_mem_getChildren hold), hp, ?_⟩
          rw [if_neg (hparent p hp).2]
          exact Nat.lt_succ_of_le (hk p)
        · refine ⟨hreg, hp, ?_⟩
          rw [if_neg (hparent p hp).2]
          exact Nat.lt_succ_of_le (hk p)
      · rintro ⟨hreg, hp, -⟩
        exact .inr ⟨hp, hc, hreg⟩
    · -- The other ports stay where they are, but the port has no children any more.
      rw [if_neg hc, if_neg hc, h.children]
      constructor
      · rintro (⟨hp, hreg, hid, hlt⟩ | ⟨-, heq, -⟩)
        · rw [if_neg hp]
          exact ⟨.inr hreg, hid, hlt⟩
        · exact absurd heq hc
      · rintro ⟨hreg, hid, hlt⟩
        have hp : p ≠ r.portId := by
          rintro rfl
          rw [if_pos rfl] at hlt
          exact absurd (hk c) (by omega)
        rw [if_neg hp] at hlt
        exact .inl ⟨hp, hreg.resolve_left hp, hid, hlt⟩

lemma Named.register (h : reg.Named) (hkeeps : reg.Keeps r) :
    (reg.register r.portId r.parentPortId r.nodeId).Named := by
  intro c
  rw [getParentPortId_eq, owner_register]
  split_ifs
  · rw [map_some, ne_eq, some.injEq]
    intro heq
    exact (hkeeps.2.2 "" heq).1 rfl
  · rw [← getParentPortId_eq]
    exact h c

lemma getParentPortId_removeAll (reg : RealmRegistry) (l : List String) (x : String) :
    (reg.removeAll l).getParentPortId x = if x ∈ l then none else reg.getParentPortId x := by
  rw [getParentPortId_eq, owner_removeAll, getParentPortId_eq]
  split_ifs <;> rfl

lemma Consistent.removeAll (h : reg.Consistent age) (hnamed : reg.Named)
    (hl : reg.Cuts reg.link l) : (reg.removeAll l).Consistent age where
  byNode := ((h.linked hnamed).removeAll hl).byNode
  children := by
    have hforest := (h.linked hnamed).forest
    intro p c
    rw [((h.linked hnamed).removeAll hl).forest.mem_children, prune, registered_removeAll,
      getParentPortId_removeAll]
    split_ifs with hc
    · simp
    · rw [← hforest.mem_children, h.children]
      constructor
      · intro hchild
        refine ⟨⟨fun hp => hc ?_, hchild.1⟩, hchild.2⟩
        exact hl.closed c p (hforest.mem_children.mp ((h.children p c).mpr hchild)) hp
      · exact fun hchild => ⟨hchild.1.2, hchild.2⟩

lemma Named.removeAll (h : reg.Named) (l : List String) : (reg.removeAll l).Named := by
  intro c
  rw [getParentPortId_removeAll]
  split_ifs
  · simp
  · exact h c

/-- The ports of `l` were removed: those reachable from the roots, each once and after its
descendants. -/
structure Removes (reg : RealmRegistry) (roots : String → Prop) (reg' : RealmRegistry)
    (l : List String) : Prop where
  once : l.Nodup
  childrenFirst : l.Pairwise fun x y => ¬ TransGen reg.Child x y
  reached : ∀ x, x ∈ l ↔ reg.Registered x ∧ ∃ r, roots r ∧ ReflTransGen reg.Child r x
  left : ∀ x, reg'.owner x = if x ∈ l then none else reg.owner x

lemma Linked.removes {roots : String → Prop} (h : reg.Linked link) (hl : reg.Cuts link l)
    (hmem : ∀ x, x ∈ l ↔ reg.Registered x ∧ ∃ r, roots r ∧ Below link x r) :
    reg.Removes roots (reg.removeAll l) l where
  once := hl.nodup
  childrenFirst := hl.ordered.imp fun hxy hchild => hxy (h.descends_iff.mpr hchild)
  reached := by
    intro x
    rw [hmem]
    simp only [h.below_iff]
  left := owner_removeAll reg l

end RealmRegistry

/-! ## The seed -/

/-- The number of calls of `register` so far, and for each port the number of the last one. -/
structure Ages where
  calls : ℕ
  since : OrderedMap String ℕ

def Ages.empty : Ages := ⟨0, ∅⟩

/-- The number of the last call for a port; zero if there was none. -/
def Ages.age (g : Ages) (x : String) : ℕ := (g.since.lookup x).getD 0

def Ages.call (g : Ages) (r : Registration) : Ages :=
  ⟨g.calls + 1, g.since.set r.portId (g.calls + 1)⟩

lemma Ages.age_call (g : Ages) (r : Registration) :
    (g.call r).age = fun x => if x = r.portId then g.calls + 1 else g.age x := by
  funext x
  simp only [age, call]
  rw [AList.lookup_set]
  split_ifs <;> rfl

namespace SeedServer

variable {s t : SeedServer} {g : Ages} {a : Input V} {out : List (Sent V)}

/-- The call of `register` that is made for an input. -/
def registration (s : SeedServer) : Input V → Option Registration
  | .handle _ sender (.spawn _ parentPortId _) =>
    (s.selectTarget sender).map fun _ => ⟨parentPortId, none, sender⟩
  | .handle _ sender (.spawnAck spawnReqId childPortId true _) =>
    (s.pendingSpawns.lookup spawnReqId).map fun info =>
      ⟨childPortId, some info.parentPortId, sender⟩
  | _ => none

def date (g : Ages) (s : SeedServer) (a : Input V) (_ : SeedServer) : Ages :=
  (s.registration a).elim g g.call

def stepDating : SeedServer × Ages → Input V → Option (SeedServer × Ages) := watch step date

/-- The call of `register`, if there is one, keeps what there is. -/
def Keeping (x : SeedServer × Ages) (a : Input V) : Prop :=
  ∀ r, x.1.registration a = some r → x.1.registry.Keeps r

/-- What an input does to the registry of the seed. -/
inductive RegistryStep (s : SeedServer) (a : Input V) (t : SeedServer) : Prop
  | keeps (hnone : s.registration a = none) (heq : t.registry = s.registry)
  | register (r : Registration) (hr : s.registration a = some r)
      (heq : t.registry = s.registry.register r.portId r.parentPortId r.nodeId)
  | exit (hnone : s.registration a = none) (portId : String) (removed : List String)
      (heq : s.registry.exit portId = some (t.registry, removed))
  | nodeDown (hnone : s.registration a = none) (nodeId : String)
      (removed : List (String × Option String))
      (heq : s.registry.nodeDown nodeId = some (t.registry, removed))

lemma registry_of_handleRealmExit {exit : RealmExitMessage}
    (h : s.handleRealmExit exit = some (t, out)) :
    ∃ removed, s.registry.exit exit.realmId = some (t.registry, removed) := by
  obtain ⟨⟨registry, removed, hexit, rfl⟩, -⟩ := handleRealmExit_frame h
  rw [forget_eq]
  exact ⟨removed, hexit⟩

lemma registry_of_loseNode {n : String} (h : s.loseNode n = some (t, out)) :
    ∃ removed, s.registry.nodeDown n = some (t.registry, removed) := by
  obtain ⟨⟨registry, pending, affected, hdown, rfl⟩, -⟩ := loseNode_frame h
  rw [forget_eq]
  exact ⟨affected, hdown⟩

/-- Every input has one of these effects on the registry. -/
lemma RegistryStep.of_react (h : s.react a = some (t, out)) : RegistryStep s a t := by
  cases a with
  | expire now timeout nodeId =>
    simp only [react] at h
    split_ifs at h
    obtain ⟨removed, heq⟩ := registry_of_loseNode h
    exact .nodeDown rfl nodeId removed heq
  | handle now sender msg =>
    cases msg with
    | hello | welcome | peerUp | terminate | heartbeat =>
      cases h
      exact .keeps rfl rfl
    | peerDown =>
      obtain ⟨removed, heq⟩ := registry_of_loseNode h
      exact .nodeDown rfl sender removed heq
    | spawn spawnReqId parentPortId config =>
      simp only [react, handle] at h
      cases htarget : s.selectTarget sender with
      | none =>
        rw [htarget] at h
        cases h
        exact .keeps (by rw [registration, htarget]; rfl) rfl
      | some target =>
        rw [htarget] at h
        cases h
        exact .register ⟨parentPortId, none, sender⟩ (by rw [registration, htarget]; rfl) rfl
    | spawnAck spawnReqId childPortId ok error =>
      simp only [react, handle] at h
      cases hinfo : s.pendingSpawns.lookup spawnReqId with
      | none =>
        rw [hinfo] at h
        cases h
        exact .keeps (by cases ok <;> simp [registration, hinfo]) rfl
      | some info =>
        rw [hinfo] at h
        cases h
        cases ok with
        | false => exact .keeps rfl rfl
        | true =>
          exact .register ⟨childPortId, some info.parentPortId, sender⟩
            (by rw [registration, hinfo]; rfl) rfl
    | realmExit exit =>
      simp only [react, handle] at h
      split_ifs at h
      · cases h
        exact .keeps rfl rfl
      · obtain ⟨removed, heq⟩ := registry_of_handleRealmExit h
        exact .exit rfl exit.realmId removed heq
    | portMsg msg =>
      simp only [react, handle] at h
      split at h
      · cases h
        exact .keeps rfl rfl
      · split_ifs at h
        · obtain ⟨⟨t', rest⟩, hexit, heq⟩ := map_eq_some_iff.mp h
          cases heq
          obtain ⟨removed, heq⟩ := registry_of_handleRealmExit hexit
          exact .exit rfl _ removed heq
        · cases h
          exact .keeps rfl rfl

/-- The registry is consistent with the ages that the history gives to its ports. -/
structure Dated (x : SeedServer × Ages) : Prop where
  consistent : x.1.registry.Consistent x.2.age
  named : x.1.registry.Named
  calls : ∀ p, x.2.age p ≤ x.2.calls

lemma dated_start (nodeId : String) : Dated (start nodeId, .empty) where
  consistent :=
    { byNode := wellFormed_empty.byNode
      children := by
        simp [start, empty, getChildren, Registered] }
  named := by
    intro c
    simp [start, empty, getParentPortId]
  calls := by simp [Ages.empty, Ages.age]

lemma Dated.step {x y : SeedServer × Ages} (h : Dated x) (hok : Keeping x a)
    (hstep : stepDating x a = some y) : Dated y := by
  obtain ⟨hnext, hdate⟩ := watch_eq_some.mp hstep
  obtain ⟨t, g'⟩ := y
  obtain rfl : g' = date x.2 x.1 a t := hdate
  obtain ⟨⟨t, out⟩, hreact, rfl⟩ := map_eq_some_iff.mp hnext
  have hsame : x.1.registration a = none → date x.2 x.1 a t = x.2 := by
    intro hnone
    rw [date, hnone]
    rfl
  have hlinked := h.consistent.linked h.named
  -- What a removal leaves is consistent.
  have hremoves : ∀ l, x.1.registry.Cuts x.1.registry.link l → x.1.registration a = none →
      t.registry = x.1.registry.removeAll l → Dated (t, date x.2 x.1 a t) := by
    intro l hl hnone heq
    rw [hsame hnone]
    refine ⟨?_, ?_, h.calls⟩ <;> dsimp only <;> rw [heq]
    · exact h.consistent.removeAll h.named hl
    · exact h.named.removeAll l
  cases RegistryStep.of_react hreact with
  | keeps hnone heq =>
    rw [hsame hnone]
    refine ⟨?_, ?_, h.calls⟩ <;> dsimp only <;> rw [heq]
    · exact h.consistent
    · exact h.named
  | register r hr heq =>
    have hkeeps := hok r hr
    have hcall : date x.2 x.1 a t = x.2.call r := by
      rw [date, hr]
      rfl
    rw [hcall]
    refine ⟨?_, ?_, fun p => ?_⟩ <;> dsimp only
    · rw [heq, Ages.age_call]
      exact h.consistent.register h.calls hkeeps
    · rw [heq]
      exact h.named.register hkeeps
    · rw [Ages.age_call]
      dsimp only
      split_ifs
      · exact le_rfl
      · exact (h.calls p).trans (Nat.le_succ _)
  | exit hnone portId removed heq =>
    obtain ⟨l, hexit, hcuts, -⟩ := hlinked.exit_spec portId
    rw [hexit, some.injEq, Prod.mk.injEq] at heq
    exact hremoves l hcuts hnone heq.1.symm
  | nodeDown hnone nodeId removed heq =>
    obtain ⟨l, hdown, hcuts, -⟩ := hlinked.nodeDown_spec nodeId
    rw [hdown, some.injEq, Prod.mk.injEq] at heq
    exact hremoves l hcuts hnone heq.1.symm

/-- In every run in which each `register` keeps what there is: the index has the ports of each node,
the children of a port are those registered under it after it, without a cycle; `exit` and
`nodeDown` end and remove exactly what can be reached, each port once and after its descendants; and
`nodeDown` returns each port with its parent. -/
theorem registry_consistent {nodeId : String}
    (h : Run (stepDating (V := V)) Keeping (start nodeId, .empty) (s, g)) :
    s.registry.Consistent g.age ∧ (∀ p, ¬ TransGen s.registry.Child p p) ∧
      (∀ p, ∃ reg l, s.registry.exit p = some (reg, l) ∧ s.registry.Removes (· = p) reg l) ∧
      ∀ n, ∃ reg l, s.registry.nodeDown n = some (reg, l) ∧
        s.registry.Removes (fun p => s.registry.getNodeId p = some n) reg (l.map fst) ∧
        ∀ e ∈ l, s.registry.getParentPortId e.1 = some e.2 := by
  have hdated : Dated (s, g) :=
    h.invariant (fun x a y hx hok hstep => hx.step hok hstep) (dated_start nodeId)
  have hlinked := hdated.consistent.linked hdated.named
  refine ⟨hdated.consistent, fun p hp => ?_, fun p => ?_, fun n => ?_⟩
  · exact hlinked.forest.not_descends_self p (hlinked.descends_iff.mpr hp)
  · obtain ⟨l, hexit, hcuts, hmem⟩ := hlinked.exit_spec p
    exact ⟨_, l, hexit, hlinked.removes hcuts (by simpa using hmem)⟩
  · obtain ⟨l, hdown, hcuts, hmem⟩ := hlinked.nodeDown_spec n
    have hfst : (l.map fun x => (x, (s.registry.owner x).bind fst)).map fst = l := by
      rw [List.map_map]
      exact List.map_id l
    refine ⟨_, _, hdown, ?_, ?_⟩
    · rw [hfst]
      exact hlinked.removes hcuts hmem
    · intro e he
      obtain ⟨x, hx, rfl⟩ := List.mem_map.mp he
      obtain ⟨o, ho⟩ := isSome_iff_exists.mp
        (registered_iff.mp (hcuts.registered x hx))
      rw [getParentPortId_eq]
      simp [ho]

instance (reg : RealmRegistry) (r : Registration) : Decidable (reg.Keeps r) :=
  decidable_of_iff ((∀ n ∈ reg.getNodeId r.portId, n = r.nodeId) ∧
      (∀ p ∈ reg.ports.keys, r.portId ∈ reg.getChildren p → r.parentPortId = some p) ∧
      ∀ p ∈ r.parentPortId, p ≠ "" ∧ p ≠ r.portId)
    (and_congr_right fun _ => and_congr_left fun _ =>
      ⟨fun h p hp => h p (registered_of_mem_getChildren hp) hp,
        fun h p _ hp => h p hp⟩)

instance (x : SeedServer × Ages) (a : Input V) : Decidable (Keeping x a) :=
  inferInstanceAs (Decidable (∀ r ∈ x.1.registration a, x.1.registry.Keeps r))

/-- Two nodes join, the first asks for a realm, and the second names its port. -/
def spawnNaming (childPortId : String) : List (Input Unit) :=
  [.handle 0 "a" (.hello "a" ⟨0, 0⟩), .handle 0 "b" (.hello "b" ⟨0, 0⟩),
    .handle 1 "a" (.spawn "a-0" "a/p" ⟨"entry", "root", [], none⟩),
    .handle 2 "b" (.spawnAck "a-0" childPortId true none)]

/-- A realm that was spawned goes with its parent, and before it. -/
theorem spawned_child_removed_first : ∃ (s : SeedServer) (g : Ages),
    Run (stepDating (V := Unit)) Keeping (start "seed", .empty) (s, g) ∧
      s.registry.Consistent g.age ∧ ∃ reg, s.registry.exit "a/p" = some (reg, ["b/0", "a/p"]) ∧
        s.registry.Removes (· = "a/p") reg ["b/0", "a/p"] := by
  have hp : (exec (restrict stepDating Keeping) (start "seed", .empty) (spawnNaming "b/0")).bind
      (fun x => (x.1.registry.exit "a/p").map snd) = some ["b/0", "a/p"] := by
    decide +kernel
  obtain ⟨⟨s, g⟩, -, hrun, hp⟩ := Run.exists_of_exec hp
  obtain ⟨hconsistent, -, hexit, -⟩ := registry_consistent hrun
  obtain ⟨reg, l, heq, hremoves⟩ := hexit "a/p"
  rw [heq, map_some, some.injEq] at hp
  obtain rfl : l = ["b/0", "a/p"] := hp
  exact ⟨s, g, hrun, hconsistent, reg, heq, hremoves⟩

/-- The second node names the parent port as that of the new realm, whose exit does not end. -/
theorem own_child_never_exits :
    ((exec step (start "seed") (spawnNaming "a/p")).map fun s =>
      (s.registry.getChildren "a/p", (s.registry.exit "a/p").isSome)) = some (["a/p"], false) := by
  decide +kernel

end SeedServer

end Fino.Cluster
