import Fino.Cluster.Protocol
import Fino.Lib.Forest
import Fino.Lib.OrderedMap

/-!
# The realm ownership tree

`RealmRegistry` of `js/internal/cluster/registry.ts`. `WellFormed` says that parents and children
are those of a forest and that the index has the ports of each node.

`register` overwrites an entry without undoing its edges, so it keeps this only for a port that has
none (`Free`). For the removals it is enough that the children are those of a forest (`Linked`):
they end, and remove what is below the port (`exit_spec`) or the ports of the node
(`nodeDown_spec`), children first.
-/

namespace Fino.Cluster

open Lib List Option AList Lib.Forest

structure PortEntry where
  portId : String
  parentPortId : Option String
  nodeId : String
  children : OrderedSet String

structure RealmRegistry where
  ports : OrderedMap String PortEntry
  byNode : OrderedMap String (OrderedSet String)

namespace RealmRegistry

def empty : RealmRegistry := ⟨∅, ∅⟩

variable (reg : RealmRegistry) (portId : String)

def register (parentPortId : Option String) (nodeId : String) : RealmRegistry :=
  let ports := reg.ports.set portId ⟨portId, parentPortId, nodeId, ∅⟩
  { ports :=
      match truthy parentPortId with
      | some parent => ports.modify parent fun e => { e with children := e.children.add portId }
      | none => ports
    byNode := reg.byNode.set nodeId (((reg.byNode.lookup nodeId).getD ∅).add portId) }

def getNodeId : Option String :=
  (reg.ports.lookup portId).map (·.nodeId)

/-- `getParentPortId`: `null` for a root, `undefined` for an unknown port. -/
def getParentPortId : Option (Option String) :=
  (reg.ports.lookup portId).map (·.parentPortId)

def getChildren : List String :=
  ((reg.ports.lookup portId).map (·.children.keys)).getD []

/-- The end of a removal: out of the parent's children, the index and the ports. -/
def detach (parentPortId : Option String) (nodeId : String) : RealmRegistry where
  ports :=
    (match truthy parentPortId with
      | some parent =>
        reg.ports.modify parent fun e => { e with children := e.children.erase portId }
      | none => reg.ports).erase portId
  byNode := reg.byNode.modify nodeId (·.erase portId)

/-- The two recursive removals, which differ in the noted item. On a cycle of children the source
overflows its stack; `depth` bounds the recursion, and no path without a cycle is longer than the
number of ports. -/
def remove {α : Type} (item : String → Option String → α) :
    ℕ → String → RealmRegistry × List α → Option (RealmRegistry × List α)
  | 0, _, _ => none
  | depth + 1, portId, (reg, acc) =>
    match reg.ports.lookup portId with
    | none => some (reg, acc)
    | some entry =>
      (entry.children.keys.foldlM (fun st child => remove item depth child st) (reg, acc)).map
        fun (reg, acc) => (reg.detach portId entry.parentPortId entry.nodeId,
          acc ++ [item portId entry.parentPortId])

def removeRecursive : ℕ → String → RealmRegistry × List String →
    Option (RealmRegistry × List String) :=
  remove fun portId _ => portId

def removeRecursiveWithParent : ℕ → String → RealmRegistry × List (String × Option String) →
    Option (RealmRegistry × List (String × Option String)) :=
  remove fun portId parentPortId => (portId, parentPortId)

/-- `exit`; `none` where the source overflows its stack. -/
def exit : Option (RealmRegistry × List String) :=
  removeRecursive (reg.ports.keys.length + 1) portId (reg, [])

/-- `nodeDown`; `none` where the source overflows its stack. -/
def nodeDown (nodeId : String) : Option (RealmRegistry × List (String × Option String)) :=
  match reg.byNode.lookup nodeId with
  | none => some (reg, [])
  | some hosted =>
    hosted.keys.foldlM
      (fun st portId => removeRecursiveWithParent (reg.ports.keys.length + 1) portId st) (reg, [])

/-! ## Parents, hosts and children -/

variable {reg : RealmRegistry} {portId nodeId x c p : String} {parentPortId : Option String}

def parent (reg : RealmRegistry) (portId : String) : Option String :=
  (reg.getParentPortId portId).bind truthy

/-- The port has an entry. -/
def Registered (reg : RealmRegistry) (portId : String) : Prop := portId ∈ reg.ports

instance : Decidable (reg.Registered portId) :=
  inferInstanceAs (Decidable (portId ∈ reg.ports.keys))

def owner (reg : RealmRegistry) (portId : String) : Option (Option String × String) :=
  (reg.ports.lookup portId).map fun e => (e.parentPortId, e.nodeId)

lemma getNodeId_eq (reg : RealmRegistry) (portId : String) :
    reg.getNodeId portId = (reg.owner portId).map Prod.snd := by
  simp [getNodeId, owner, Function.comp_def]

lemma getParentPortId_eq (reg : RealmRegistry) (portId : String) :
    reg.getParentPortId portId = (reg.owner portId).map Prod.fst := by
  simp [getParentPortId, owner, Function.comp_def]

lemma registered_iff : reg.Registered portId ↔ (reg.owner portId).isSome := by
  rw [Registered, ← lookup_isSome, owner, isSome_map]

lemma registered_iff_getNodeId : reg.Registered portId ↔ ∃ n, reg.getNodeId portId = some n := by
  rw [registered_iff, getNodeId_eq, ← isSome_iff_exists, isSome_map]

lemma registered_of_parent (h : reg.parent x = some p) : reg.Registered x := by
  rw [registered_iff]
  rw [parent, getParentPortId_eq] at h
  cases howner : reg.owner x with
  | none => simp [howner] at h
  | some o => rfl

lemma registered_of_mem_getChildren (h : c ∈ reg.getChildren x) : reg.Registered x := by
  rw [Registered, ← lookup_isSome]
  unfold getChildren at h
  cases hx : reg.ports.lookup x with
  | none => simp [hx] at h
  | some e => rfl

lemma owner_register (reg : RealmRegistry) (portId : String) (parentPortId : Option String)
    (nodeId x : String) : (reg.register portId parentPortId nodeId).owner x =
      if x = portId then some (parentPortId, nodeId) else reg.owner x := by
  have hset : ((reg.ports.set portId ⟨portId, parentPortId, nodeId, ∅⟩).lookup x).map
      (fun e => (e.parentPortId, e.nodeId)) =
        if x = portId then some (parentPortId, nodeId) else reg.owner x := by
    rw [lookup_set, owner]
    split_ifs <;> rfl
  unfold register
  cases truthy parentPortId with
  | none => exact hset
  | some q =>
    rw [← hset]
    simp only [owner, lookup_modify]
    split_ifs with hx
    · rw [hx, Option.map_map]
      rfl
    · rfl

/-- Registration adds the port to its parent's children and forgets its own. -/
lemma mem_getChildren_register : c ∈ (reg.register portId parentPortId nodeId).getChildren x ↔
    (x ≠ portId ∧ c ∈ reg.getChildren x) ∨
      (truthy parentPortId = some x ∧ c = portId ∧ (x = portId ∨ reg.Registered x)) := by
  have hset : c ∈ (((reg.ports.set portId ⟨portId, parentPortId, nodeId, ∅⟩).lookup x).map
      (·.children.keys)).getD [] ↔ x ≠ portId ∧ c ∈ reg.getChildren x := by
    rw [lookup_set]
    split_ifs with hx
    · simp [hx]
    · simp [getChildren, hx]
  unfold register
  cases hq : truthy parentPortId with
  | none => simpa [getChildren] using hset
  | some q =>
    rw [← hset]
    simp only [getChildren, lookup_modify]
    split_ifs with hx
    · subst hx
      rw [Registered, ← mem_set (v := (⟨portId, parentPortId, nodeId, ∅⟩ : PortEntry)),
        ← lookup_isSome]
      cases (reg.ports.set portId ⟨portId, parentPortId, nodeId, ∅⟩).lookup x with
      | none => simp
      | some e => simp [← AList.mem_keys, or_comm]
    · simp [Ne.symm hx]

lemma owner_detach (reg : RealmRegistry) (portId : String) (parentPortId : Option String)
    (nodeId x : String) : (reg.detach portId parentPortId nodeId).owner x =
      if x = portId then none else reg.owner x := by
  unfold detach owner
  rw [lookup_erase_eq_ite]
  split_ifs with hx
  · rfl
  · cases truthy parentPortId with
    | none => rfl
    | some q =>
      rw [lookup_modify]
      split_ifs with hq
      · rw [hq, Option.map_map]
        rfl
      · rfl

lemma mem_getChildren_detach : c ∈ (reg.detach portId parentPortId nodeId).getChildren x ↔
    x ≠ portId ∧ c ∈ reg.getChildren x ∧ ¬ (truthy parentPortId = some x ∧ c = portId) := by
  unfold detach getChildren
  rw [lookup_erase_eq_ite]
  split_ifs with hx
  · simp [hx]
  · cases hq : truthy parentPortId with
    | none => simp [hx]
    | some q =>
      rw [lookup_modify]
      split_ifs with hxq
      · subst hxq
        cases reg.ports.lookup x with
        | none => simp
        | some e =>
          have herase : c ∈ (e.children.erase portId).keys ↔ c ≠ portId ∧ c ∈ e.children.keys :=
            mem_erase
          simp only [map_some, getD_some, herase, hx, ne_eq, not_false_eq_true, true_and, and_comm]
      · simp [hx, Ne.symm hxq]

/-- A removal leaves the children of other ports alone. -/
lemma getChildren_detach_of_notMem (hx : x ≠ portId) (hmem : portId ∉ reg.getChildren x) :
    (reg.detach portId parentPortId nodeId).getChildren x = reg.getChildren x := by
  unfold detach
  unfold getChildren at hmem ⊢
  rw [lookup_erase_ne hx]
  cases hq : truthy parentPortId with
  | none => rfl
  | some q =>
    rw [lookup_modify]
    split_ifs with hxq
    · subst hxq
      cases he : reg.ports.lookup x with
      | none => rfl
      | some e =>
        rw [he] at hmem
        have hkeys : (e.children.erase portId).keys = e.children.keys := by
          rw [keys_erase]
          exact erase_of_not_mem hmem
        simp only [map_some, getD_some, hkeys]
    · rfl

/-! ## Well formed registries -/

/-- The parents, the children and the index of a registry belong together. -/
structure WellFormed (reg : RealmRegistry) : Prop where
  forest : IsForest reg.parent reg.getChildren
  byNode : ∀ n p, p ∈ (reg.byNode.lookup n).getD ∅ ↔ reg.getNodeId p = some n

/-- The port can be registered at the node without loss: it is unknown, or a childless root of this
node. -/
def Free (reg : RealmRegistry) (portId nodeId : String) : Prop :=
  ∀ e ∈ reg.ports.lookup portId,
    truthy e.parentPortId = none ∧ e.nodeId = nodeId ∧ e.children.keys = []

section

variable (h : reg.Free portId nodeId)

include h

lemma Free.parent_eq_none : reg.parent portId = none := by
  unfold parent getParentPortId
  cases hp : reg.ports.lookup portId with
  | none => rfl
  | some e => exact (h e hp).1

lemma Free.getChildren_eq_nil : reg.getChildren portId = [] := by
  unfold getChildren
  cases hp : reg.ports.lookup portId with
  | none => rfl
  | some e => exact (h e hp).2.2

lemma Free.getNodeId_eq_some {n : String} (hn : reg.getNodeId portId = some n) : n = nodeId := by
  obtain ⟨e, he, rfl⟩ := map_eq_some_iff.mp hn
  exact (h e he).2.1

end

lemma wellFormed_empty : empty.WellFormed where
  forest :=
    { mem_children := by simp [empty, getChildren, parent, getParentPortId]
      nodup := by simp [empty, getChildren]
      ranked := ⟨fun _ => 0, by simp [empty, parent, getParentPortId]⟩ }
  byNode := by simp [empty, getNodeId]

section

variable (reg : RealmRegistry) (portId : String)

lemma nodup_getChildren : (reg.getChildren portId).Nodup := by
  unfold getChildren
  cases reg.ports.lookup portId with
  | none => exact nodup_nil
  | some e => exact e.children.keys_nodup

variable (parentPortId : Option String)

lemma parent_register (nodeId x : String) : (reg.register portId parentPortId nodeId).parent x =
      if x = portId then truthy parentPortId else reg.parent x := by
  simp only [parent, getParentPortId_eq, owner_register]
  split_ifs <;> rfl

lemma getNodeId_register
    (nodeId x : String) : (reg.register portId parentPortId nodeId).getNodeId x =
      if x = portId then some nodeId else reg.getNodeId x := by
  simp only [getNodeId_eq, owner_register]
  split_ifs <;> rfl

end

/-- The index after the registration of a port that is on no other node. -/
lemma byNode_register (h : ∀ n p, p ∈ (reg.byNode.lookup n).getD ∅ ↔ reg.getNodeId p = some n)
    (hnode : ∀ n, reg.getNodeId portId = some n → n = nodeId) (n p : String) :
    p ∈ ((reg.register portId parentPortId nodeId).byNode.lookup n).getD ∅ ↔
      (reg.register portId parentPortId nodeId).getNodeId p = some n := by
  have hindex : p ∈ ((reg.register portId parentPortId nodeId).byNode.lookup n).getD ∅ ↔
      (n = nodeId ∧ p = portId) ∨ p ∈ (reg.byNode.lookup n).getD ∅ := by
    unfold register
    rw [lookup_set]
    split_ifs with hn
    · subst hn
      simp
    · simp [hn]
  rw [hindex, h, getNodeId_register]
  by_cases hp : p = portId
  · subst hp
    rw [if_pos rfl, Option.some.injEq]
    constructor
    · rintro (⟨rfl, -⟩ | hn)
      · rfl
      · exact (hnode n hn).symm
    · rintro rfl
      exact .inl ⟨rfl, rfl⟩
  · simp [hp]

lemma WellFormed.register (h : reg.WellFormed) (hfree : reg.Free portId nodeId)
    (hparent : ∀ q, truthy parentPortId = some q → q ≠ portId ∧ reg.Registered q) :
    (reg.register portId parentPortId nodeId).WellFormed where
  forest :=
    { mem_children := by
        intro c p
        rw [mem_getChildren_register, parent_register, h.forest.mem_children]
        -- Nothing has the port as its parent, and the port had none.
        have hleaf : reg.parent c ≠ some portId := by
          rw [ne_eq, ← h.forest.mem_children, hfree.getChildren_eq_nil]
          exact not_mem_nil
        by_cases hc : c = portId
        · subst hc
          rw [if_pos rfl, hfree.parent_eq_none]
          constructor
          · rintro (⟨-, hp⟩ | ⟨hp, -, -⟩)
            · simp at hp
            · exact hp
          · intro hp
            exact .inr ⟨hp, rfl, .inr (hparent p hp).2⟩
        · rw [if_neg hc]
          constructor
          · rintro (⟨-, hp⟩ | ⟨-, heq, -⟩)
            · exact hp
            · exact absurd heq hc
          · intro hp
            exact .inl ⟨fun heq => hleaf (heq ▸ hp), hp⟩
      nodup := nodup_getChildren _
      ranked := by
        obtain ⟨rank, hrank⟩ := h.forest.ranked
        -- The port comes one below its parent.
        refine ⟨fun x => if x = portId then (truthy parentPortId).elim 0 (rank · + 1) else rank x,
          ?_⟩
        intro c p hp
        rw [parent_register] at hp
        by_cases hc : c = portId
        · rw [if_pos hc] at hp
          have hne := (hparent p hp).1
          simp [hc, hp, hne]
        · rw [if_neg hc] at hp
          have hne : p ≠ portId := by
            rintro rfl
            rw [← h.forest.mem_children, hfree.getChildren_eq_nil] at hp
            exact not_mem_nil hp
          simpa [hc, hne] using hrank c p hp }
  byNode := byNode_register h.byNode fun _ hn => hfree.getNodeId_eq_some hn

/-- The removal of a port with the owner that it has. -/
def removeOne (reg : RealmRegistry) (portId : String) : RealmRegistry :=
  match reg.owner portId with
  | some (parentPortId, nodeId) => reg.detach portId parentPortId nodeId
  | none => reg

def removeAll (reg : RealmRegistry) (l : List String) : RealmRegistry := l.foldl removeOne reg

section

variable (reg : RealmRegistry)

@[simp]
lemma removeAll_nil : reg.removeAll [] = reg := rfl

lemma removeAll_cons (x : String) (l : List String) :
    reg.removeAll (x :: l) = (reg.removeOne x).removeAll l := rfl

lemma removeAll_append (l l' : List String) :
    reg.removeAll (l ++ l') = (reg.removeAll l).removeAll l' := foldl_append

lemma owner_removeOne (portId x : String) :
    (reg.removeOne portId).owner x = if x = portId then none else reg.owner x := by
  unfold removeOne
  split
  · exact owner_detach ..
  · next hnone =>
    split_ifs with hx
    · rw [hx, hnone]
    · rfl

lemma owner_removeAll (l : List String) (x : String) :
    (reg.removeAll l).owner x = if x ∈ l then none else reg.owner x := by
  induction l generalizing reg with
  | nil => rfl
  | cons y l ih =>
    rw [removeAll_cons, ih, owner_removeOne]
    by_cases hx : x = y <;> simp [hx]

lemma getNodeId_removeAll (l : List String) (x : String) :
    (reg.removeAll l).getNodeId x = if x ∈ l then none else reg.getNodeId x := by
  rw [getNodeId_eq, owner_removeAll, getNodeId_eq]
  split_ifs <;> rfl

end

variable {l : List String}

lemma registered_removeAll : (reg.removeAll l).Registered x ↔ x ∉ l ∧ reg.Registered x := by
  rw [registered_iff, owner_removeAll, registered_iff]
  split_ifs with hx <;> simp [hx]

lemma parent_removeAll (reg : RealmRegistry) (l : List String) :
    (reg.removeAll l).parent = prune reg.parent l := by
  funext x
  rw [parent, getParentPortId_eq, owner_removeAll, prune, parent, getParentPortId_eq]
  split_ifs <;> rfl

lemma mem_getChildren_of_removeOne (h : c ∈ (reg.removeOne portId).getChildren x) :
    c ∈ reg.getChildren x := by
  unfold removeOne at h
  split at h
  · exact (mem_getChildren_detach.mp h).2.1
  · exact h

lemma getChildren_removeAll (hx : x ∉ l) (hchild : ∀ y ∈ l, y ∉ reg.getChildren x) :
    (reg.removeAll l).getChildren x = reg.getChildren x := by
  induction l generalizing reg with
  | nil => rfl
  | cons y l ih =>
    rw [mem_cons, not_or] at hx
    have hone : (reg.removeOne y).getChildren x = reg.getChildren x := by
      unfold removeOne
      split
      · exact getChildren_detach_of_notMem hx.1 (hchild y (by simp))
      · rfl
    rw [removeAll_cons, ih hx.2, hone]
    intro z hz hzx
    exact hchild z (by simp [hz]) (mem_getChildren_of_removeOne hzx)

/-! ## Linked registries -/

/-- The children are those of a forest in which a port is below its parent or nothing, and the index
belongs to the ports. A port may be missing among its parent's children. -/
structure Linked (reg : RealmRegistry) (link : String → Option String) : Prop where
  forest : IsForest link reg.getChildren
  parents : ∀ c p, link c = some p → reg.parent c = some p
  byNode : ∀ n p, p ∈ (reg.byNode.lookup n).getD ∅ ↔ reg.getNodeId p = some n

lemma WellFormed.linked (h : reg.WellFormed) : reg.Linked reg.parent :=
  ⟨h.forest, fun _ _ hp => hp, h.byNode⟩

lemma Linked.wellFormed (h : reg.Linked reg.parent) : reg.WellFormed := ⟨h.forest, h.byNode⟩

variable {link : String → Option String}

lemma Linked.registered (h : reg.Linked link) (hp : link x = some p) :
    reg.Registered x := registered_of_parent (h.parents x p hp)

/-- A port without children can be taken out. -/
lemma Linked.removeOne (h : reg.Linked link) (hleaf : reg.getChildren portId = []) :
    (reg.removeOne portId).Linked (prune link [portId]) := by
  have hparent : (reg.removeOne portId).parent = prune reg.parent [portId] :=
    parent_removeAll reg [portId]
  cases howner : reg.owner portId with
  | none =>
    -- An unknown port is linked to nothing.
    have hsame : prune link [portId] = link := by
      funext c
      rw [prune]
      split_ifs with hc
      · obtain rfl := mem_singleton.mp hc
        cases hp : link c with
        | none => rfl
        | some p =>
          have hreg := registered_iff.mp (h.registered hp)
          rw [howner] at hreg
          simp at hreg
      · rfl
    rw [RealmRegistry.removeOne, howner, hsame]
    exact h
  | some o =>
    obtain ⟨parentPortId, nodeId⟩ := o
    have hnode : ∀ n p, p ∈ ((reg.removeOne portId).byNode.lookup n).getD ∅ ↔
        p ∈ (reg.byNode.lookup n).getD ∅ ∧ ¬ (n = nodeId ∧ p = portId) := by
      intro n p
      rw [RealmRegistry.removeOne, howner]
      unfold detach
      rw [lookup_modify]
      split_ifs with hn
      · subst hn
        cases reg.byNode.lookup n with
        | none => simp
        | some s => simp [and_comm]
      · simp [hn]
    have hchildren : ∀ c p, c ∈ (reg.removeOne portId).getChildren p ↔
        p ≠ portId ∧ c ∈ reg.getChildren p ∧ ¬ (reg.parent portId = some p ∧ c = portId) := by
      intro c p
      have hp : reg.parent portId = truthy parentPortId := by
        rw [parent, getParentPortId_eq, howner]
        rfl
      rw [RealmRegistry.removeOne, howner, hp]
      exact mem_getChildren_detach
    refine ⟨⟨?_, nodup_getChildren _, ?_⟩, ?_, ?_⟩
    · intro c p
      rw [hchildren, h.forest.mem_children, prune]
      simp only [mem_singleton]
      by_cases hc : c = portId
      · subst hc
        rw [if_pos rfl]
        simp only [reduceCtorEq, iff_false, not_and, and_true, not_not]
        exact fun _ hcp => h.parents c p hcp
      · rw [if_neg hc]
        constructor
        · exact fun hcp => hcp.2.1
        · intro hcp
          refine ⟨?_, hcp, fun hand => hc hand.2⟩
          rintro rfl
          rw [← h.forest.mem_children, hleaf] at hcp
          exact not_mem_nil hcp
    · obtain ⟨rank, hrank⟩ := h.forest.ranked
      refine ⟨rank, fun c p hp => hrank c p ?_⟩
      rw [prune] at hp
      split_ifs at hp
      exact hp
    · intro c p hp
      rw [prune] at hp
      split_ifs at hp with hc
      rw [hparent, prune, if_neg hc]
      exact h.parents c p hp
    · intro n p
      have hid : (reg.removeOne portId).getNodeId p =
          if p ∈ [portId] then none else reg.getNodeId p := getNodeId_removeAll reg [portId] p
      rw [hnode, h.byNode, hid]
      by_cases hp : p = portId
      · subst hp
        have hself : reg.getNodeId p = some nodeId := by
          rw [getNodeId_eq, howner]
          rfl
        simp [hself, eq_comm]
      · simp [hp]

/-- Ports that can be removed one after the other: what is below a port is earlier in the list. The
links are the parents, or what they were before some of them were forgotten. -/
structure Cuts (reg : RealmRegistry) (link : String → Option String) (l : List String) : Prop where
  registered : ∀ x ∈ l, reg.Registered x
  nodup : l.Nodup
  ordered : l.Pairwise fun x y => ¬ Descends link y x
  closed : Closed link l

lemma cuts_nil (reg : RealmRegistry) (link : String → Option String) : reg.Cuts link [] :=
  ⟨by simp, nodup_nil, .nil, fun _ _ _ hp => absurd hp not_mem_nil⟩

lemma prune_prune (link : String → Option String) (l l' : List String) :
    prune (prune link l) l' = prune link (l ++ l') := by
  funext x
  simp only [prune, mem_append]
  by_cases hx : x ∈ l' <;> simp [hx]

/-- So can a list of ports in which what is below a port comes first. -/
lemma Linked.removeAll (h : reg.Linked link) (hl : reg.Cuts link l) :
    (reg.removeAll l).Linked (prune link l) := by
  induction l generalizing reg link with
  | nil => exact h
  | cons x l ih =>
    obtain ⟨hreg, hnodup, hord, hclosed⟩ := hl
    obtain ⟨hx, hnodup⟩ := nodup_cons.mp hnodup
    obtain ⟨hhead, hord⟩ := pairwise_cons.mp hord
    -- The children of `x` would have to come behind it.
    have hleaf : reg.getChildren x = [] := by
      apply eq_nil_iff_forall_not_mem.mpr
      intro c hc
      rw [h.forest.mem_children] at hc
      rcases mem_cons.mp (hclosed c x hc (by simp)) with rfl | hmem
      · exact h.forest.not_descends_self c (.single hc)
      · exact hhead c hmem (.single hc)
    have hsplit : prune link (x :: l) = prune (prune link [x]) l := (prune_prune link [x] l).symm
    rw [removeAll_cons, hsplit]
    refine ih (h.removeOne hleaf) ⟨?_, hnodup, ?_, ?_⟩
    · intro y hy
      have hyx : y ∉ [x] := fun hmem => hx (mem_singleton.mp hmem ▸ hy)
      exact registered_removeAll.mpr ⟨hyx, hreg y (by simp [hy])⟩
    · exact hord.imp fun hxy hdesc => hxy hdesc.of_prune
    · intro c p hc hp
      rw [prune] at hc
      split_ifs at hc with hcx
      rcases mem_cons.mp (hclosed c p hc (by simp [hp])) with rfl | hmem
      · exact absurd (mem_singleton_self c) hcx
      · exact hmem

lemma WellFormed.removeAll (h : reg.WellFormed) (hl : reg.Cuts reg.parent l) :
    (reg.removeAll l).WellFormed := by
  refine Linked.wellFormed ?_
  rw [parent_removeAll]
  exact h.linked.removeAll hl

lemma Cuts.append {l' : List String} (hl : reg.Cuts link l)
    (hl' : (reg.removeAll l).Cuts (prune link l) l') : reg.Cuts link (l ++ l') := by
  have hleft : ∀ x ∈ l', x ∉ l ∧ reg.Registered x :=
    fun x hx => registered_removeAll.mp (hl'.registered x hx)
  refine ⟨?_, ?_, ?_, ?_⟩
  · intro x hx
    rcases mem_append.mp hx with hx | hx
    · exact hl.registered x hx
    · exact (hleft x hx).2
  · rw [nodup_append]
    refine ⟨hl.nodup, hl'.nodup, ?_⟩
    rintro x hx y hy rfl
    exact (hleft x hy).1 hx
  · rw [pairwise_append]
    refine ⟨hl.ordered, ?_, ?_⟩
    · refine hl'.ordered.imp_of_mem fun {x y} _ hy hxy hdesc => hxy ?_
      exact (descends_prune_iff hl.closed (hleft y hy).1).mpr hdesc
    · intro x hx y hy hdesc
      exact (hleft y hy).1 (hl.closed.mem_of_descends hdesc hx)
  · intro c p hc hp
    rw [mem_append] at hp ⊢
    by_cases hcl : c ∈ l
    · exact .inl hcl
    · rcases hp with hp | hp
      · exact .inl (hl.closed c p hc hp)
      · refine .inr (hl'.closed c p ?_ hp)
        rw [prune, if_neg hcl]
        exact hc

/-! ## The recursive removals -/

section Remove

variable {α : Type} {item : String → Option String → α}

def noted (item : String → Option String → α) (reg : RealmRegistry) (x : String) : α :=
  item x ((reg.owner x).bind Prod.fst)

variable {l : List String}

lemma noted_removeAll (hx : x ∉ l) : (reg.removeAll l).noted item x = reg.noted item x := by
  rw [noted, owner_removeAll, if_neg hx, noted]

variable {roots : List String} {y : String}

lemma Linked.registered_of_walks (h : reg.Linked link) (hroots : ∀ r ∈ roots, reg.Registered r)
    (hw : Walks reg.getChildren roots l) (hx : x ∈ l) :
    reg.Registered x := by
  obtain ⟨r, hr, hxr⟩ := (hw.mem_iff h.forest).mp hx
  rcases hxr.cases_head with rfl | ⟨p, hp, -⟩
  · exact hroots x hr
  · exact h.registered hp

lemma Linked.cuts (h : reg.Linked link) (hroots : ∀ r ∈ roots, reg.Registered r)
    (hapart : roots.Pairwise fun a b => ∀ x, Below link x a → ¬ Below link x b)
    (hw : Walks reg.getChildren roots l) : reg.Cuts link l where
  registered := fun _ hx => h.registered_of_walks hroots hw hx
  nodup := hw.nodup h.forest hapart
  ordered := hw.ordered h.forest hapart
  closed := hw.closed h.forest

/-- At a sufficient depth `remove` removes a walk through the tree of the port. -/
def RemovesTree (item : String → Option String → α) (nodes : Finset String) (depth : ℕ) : Prop :=
  ∀ (reg : RealmRegistry) (link : String → Option String) (r : String) (acc : List α),
    reg.Linked link → (∀ x, reg.Registered x → x ∈ nodes) → reg.Registered r →
    size link nodes r < depth → ∃ l, Walks reg.getChildren (reg.getChildren r) l ∧
      remove item depth r (reg, acc) = some (reg.removeAll (l ++ [r]),
        acc ++ (l ++ [r]).map (reg.noted item))

lemma link_of_prune (h : prune link l x = some y) : link x = some y := by
  rw [prune] at h
  split_ifs at h
  exact h

lemma parent_of_removeAll (h : (reg.removeAll l).parent x = some y) : reg.parent x = some y := by
  rw [parent_removeAll] at h
  exact link_of_prune h

variable {nodes : Finset String} {depth : ℕ}

/-- The loop over roots of trees that lie apart: a removal leaves the later trees as they are. -/
lemma RemovesTree.foldlM (hdepth : RemovesTree item nodes depth) (cs : List String)
    (reg : RealmRegistry) (link : String → Option String) (acc : List α) (h : reg.Linked link)
    (hnodes : ∀ x, reg.Registered x → x ∈ nodes)
    (hcs : ∀ c ∈ cs, reg.Registered c ∧ size link nodes c < depth)
    (hapart : cs.Pairwise fun a b => ∀ x, Below link x a → ¬ Below link x b) :
    ∃ ls, Walks reg.getChildren cs ls ∧
      cs.foldlM (fun st child => remove item depth child st) (reg, acc) =
        some (reg.removeAll ls, acc ++ ls.map (reg.noted item)) := by
  induction cs generalizing reg link acc with
  | nil => exact ⟨[], .nil, by simp⟩
  | cons c cs ih =>
    obtain ⟨hhead, htail⟩ := pairwise_cons.mp hapart
    obtain ⟨hc, hcs⟩ := forall_mem_cons.mp hcs
    obtain ⟨l, hl, hremove⟩ := hdepth reg link c acc h hnodes hc.1 hc.2
    have hwalk : Walks reg.getChildren [c] (l ++ [c]) := .cons hl .nil
    have hcuts : reg.Cuts link (l ++ [c]) := h.cuts (by simpa using hc.1) (by simp) hwalk
    have hmem : ∀ x, x ∈ l ++ [c] ↔ Below link x c := by
      intro x
      rw [hwalk.mem_iff h.forest]
      simp
    have hlinked := h.removeAll hcuts
    have hbelow : ∀ {x y}, Below (prune link (l ++ [c])) x y → Below link x y :=
      Relation.ReflTransGen.mono (fun _ _ => link_of_prune) _ _
    have hleft : ∀ d ∈ cs, (reg.removeAll (l ++ [c])).Registered d ∧
        size (prune link (l ++ [c])) nodes d < depth := by
      intro d hd
      have hdc : d ∉ l ++ [c] := by
        rw [hmem]
        exact fun hdc => hhead d hd d hdc .refl
      exact ⟨registered_removeAll.mpr ⟨hdc, (hcs d hd).1⟩,
        (size_mono (fun _ _ => link_of_prune) nodes d).trans_lt (hcs d hd).2⟩
    obtain ⟨ls, hls, hrest⟩ := ih (reg.removeAll (l ++ [c])) (prune link (l ++ [c]))
      (acc ++ (l ++ [c]).map (reg.noted item)) hlinked
      (fun x hx => hnodes x (registered_removeAll.mp hx).2) hleft
      (htail.imp fun hab x hxa hxb => hab x (hbelow hxa) (hbelow hxb))
    -- Nothing in the trees that follow lies below `c`, or has a child there.
    have hout : ∀ x ∈ ls, x ∉ l ++ [c] := by
      intro x hx hxc
      obtain ⟨d, hd, hxd⟩ := (hls.mem_iff hlinked.forest).mp hx
      exact hhead d hd x ((hmem x).mp hxc) (hbelow hxd)
    have hkids : ∀ x ∈ ls, ∀ y ∈ l ++ [c], y ∉ reg.getChildren x := by
      intro x hx y hy hyx
      obtain ⟨d, hd, hxd⟩ := (hls.mem_iff hlinked.forest).mp hx
      exact hhead d hd y ((hmem y).mp hy) (.head (h.forest.mem_children.mp hyx) (hbelow hxd))
    have hnoted : ls.map ((reg.removeAll (l ++ [c])).noted item) = ls.map (reg.noted item) :=
      map_congr_left fun x hx => noted_removeAll (hout x hx)
    refine ⟨l ++ c :: ls, .cons hl (hls.congr ?_), ?_⟩
    · intro x hx
      exact (getChildren_removeAll (hout x hx) (hkids x hx)).symm
    · rw [foldlM_cons, hremove]
      simp only [bind_eq_bind, bind_some]
      rw [hrest, hnoted, ← removeAll_append, append_assoc acc, ← map_append, ← append_cons]

lemma removesTree (item : String → Option String → α) (nodes : Finset String) (depth : ℕ) :
    RemovesTree item nodes depth := by
  induction depth with
  | zero => exact fun _ _ _ _ _ _ _ hlt => absurd hlt (Nat.not_lt_zero _)
  | succ depth ih =>
    intro reg link r acc h hnodes hr hdepth
    obtain ⟨e, he⟩ := isSome_iff_exists.mp (lookup_isSome.mpr hr)
    have hchildren : reg.getChildren r = e.children.keys := by
      rw [getChildren, he]
      rfl
    have howner : reg.owner r = some (e.parentPortId, e.nodeId) := by
      rw [owner, he]
      rfl
    have hsmaller : ∀ c ∈ reg.getChildren r, reg.Registered c ∧ size link nodes c < depth := by
      intro c hc
      rw [h.forest.mem_children] at hc
      have hlt := size_lt h.forest (fun x p hx => hnodes x (h.registered hx)) hc
      exact ⟨h.registered hc, by omega⟩
    obtain ⟨l, hl, hfold⟩ :=
      ih.foldlM (reg.getChildren r) reg link acc h hnodes hsmaller (h.forest.children_apart r)
    refine ⟨l, hl, ?_⟩
    -- The port itself is not below its children, so it still has its owner in the end.
    have hrl : r ∉ l := by
      intro hmem
      obtain ⟨c, hc, hrc⟩ := (hl.mem_iff h.forest).mp hmem
      exact h.forest.not_below_child (h.forest.mem_children.mp hc) hrc
    have hlast : (reg.removeAll l).removeAll [r] =
        (reg.removeAll l).detach r e.parentPortId e.nodeId := by
      rw [removeAll_cons, RealmRegistry.removeOne, owner_removeAll, if_neg hrl, howner,
        removeAll_nil]
    have hitem : [r].map (reg.noted item) = [item r e.parentPortId] := by
      rw [map_singleton, noted, howner]
      rfl
    rw [remove, he]
    simp only
    rw [← hchildren, hfold, map_some, removeAll_append, hlast, map_append, hitem, append_assoc]

lemma Linked.remove_spec (h : reg.Linked link) (item : String → Option String → α) (r : String)
    (hnodes : ∀ x, reg.Registered x → x ∈ nodes) (hdepth : nodes.card < depth) (acc : List α) :
    ∃ l, remove item depth r (reg, acc) = some (reg.removeAll l, acc ++ l.map (reg.noted item)) ∧
      reg.Cuts link l ∧ ∀ x, x ∈ l ↔ reg.Registered x ∧ Below link x r := by
  by_cases hr : reg.Registered r
  · have hsize : size link nodes r < depth := (size_le _ r).trans_lt hdepth
    obtain ⟨l, hl, heq⟩ := removesTree item nodes depth reg link r acc h hnodes hr hsize
    have hwalk : Walks reg.getChildren [r] (l ++ [r]) := .cons hl .nil
    have hcuts : reg.Cuts link (l ++ [r]) := h.cuts (by simpa using hr) (by simp) hwalk
    refine ⟨l ++ [r], heq, hcuts, fun x => ?_⟩
    have hmem : x ∈ l ++ [r] ↔ Below link x r := by
      rw [hwalk.mem_iff h.forest]
      simp
    rw [hmem, iff_and_self, ← hmem]
    exact hcuts.registered x
  · refine ⟨[], ?_, cuts_nil reg link, fun x => ?_⟩
    · obtain ⟨depth, rfl⟩ := Nat.exists_eq_succ_of_ne_zero (Nat.ne_zero_of_lt hdepth)
      rw [remove, lookup_eq_none.mpr hr]
      simp
    · -- A port with something below it is registered.
      simp only [not_mem_nil, false_iff, not_and]
      intro hx hxr
      rw [below_iff] at hxr
      rcases hxr with rfl | ⟨c, hc, -⟩
      · exact hr hx
      · exact hr (registered_of_mem_getChildren (h.forest.mem_children.mpr hc))

/-- The loop of `nodeDown`: a port that an earlier turn removed is unknown in its own. -/
lemma Linked.foldlM_remove_spec (h : reg.Linked link) (item : String → Option String → α)
    (rs : List String) (hnodes : ∀ x, reg.Registered x → x ∈ nodes) (hdepth : nodes.card < depth)
    (acc : List α) :
    ∃ l, rs.foldlM (fun st portId => remove item depth portId st) (reg, acc) =
        some (reg.removeAll l, acc ++ l.map (reg.noted item)) ∧
      reg.Cuts link l ∧ ∀ x, x ∈ l ↔ reg.Registered x ∧ ∃ r ∈ rs, Below link x r := by
  induction rs generalizing reg link acc with
  | nil => exact ⟨[], by simp, cuts_nil reg link, by simp⟩
  | cons r rs ih =>
    obtain ⟨l, heq, hcuts, hmem⟩ := h.remove_spec item r hnodes hdepth acc
    obtain ⟨l', heq', hcuts', hmem'⟩ := ih (h.removeAll hcuts)
      (fun x hx => hnodes x (registered_removeAll.mp hx).2) (acc ++ l.map (reg.noted item))
    have hleft : ∀ x ∈ l', x ∉ l := fun x hx =>
      (registered_removeAll.mp ((hmem' x).mp hx).1).1
    have hnoted : l'.map ((reg.removeAll l).noted item) = l'.map (reg.noted item) :=
      map_congr_left fun x hx => noted_removeAll (hleft x hx)
    refine ⟨l ++ l', ?_, hcuts.append hcuts', fun x => ?_⟩
    · rw [foldlM_cons, heq]
      simp only [bind_eq_bind, bind_some]
      rw [heq', hnoted, ← removeAll_append, append_assoc acc, ← map_append]
    · rw [mem_append, hmem', registered_removeAll]
      by_cases hx : x ∈ l
      · simp only [hx, true_or, true_iff]
        obtain ⟨hreg, hbelow⟩ := (hmem x).mp hx
        exact ⟨hreg, r, by simp, hbelow⟩
      · -- For a port that is left, descent is as it was.
        have hiff : ∀ q, Below (prune link l) x q ↔ Below link x q := by
          intro q
          rw [below_iff_eq_or_descends, below_iff_eq_or_descends,
            descends_prune_iff hcuts.closed hx]
        have hr : reg.Registered x → ¬ Below link x r :=
          fun hreg hbelow => hx ((hmem x).mpr ⟨hreg, hbelow⟩)
        simp only [hx, false_or, not_false_eq_true, true_and, hiff, mem_cons, exists_eq_or_imp]
        constructor
        · rintro ⟨hreg, q, hq, hbelow⟩
          exact ⟨hreg, .inr ⟨q, hq, hbelow⟩⟩
        · rintro ⟨hreg, hbelow | hbelow⟩
          · exact absurd hbelow (hr hreg)
          · exact ⟨hreg, hbelow⟩

end Remove

lemma card_ports_lt (reg : RealmRegistry) :
    reg.ports.keys.toFinset.card < reg.ports.keys.length + 1 :=
  Nat.lt_succ_of_le (toFinset_card_le _)

lemma Linked.exit_spec (h : reg.Linked link) (r : String) :
    ∃ l, reg.exit r = some (reg.removeAll l, l) ∧ reg.Cuts link l ∧
      ∀ x, x ∈ l ↔ reg.Registered x ∧ Below link x r := by
  obtain ⟨l, heq, hcuts, hmem⟩ := h.remove_spec (fun portId _ => portId) r
    (fun _ hx => List.mem_toFinset.mpr hx) reg.card_ports_lt []
  refine ⟨l, ?_, hcuts, hmem⟩
  have hid : reg.noted (fun portId _ => portId) = id := rfl
  rw [exit, removeRecursive, heq, hid, List.map_id, List.nil_append]

/-- `nodeDown` ends, and removes the ports of the node and what is below, children first. -/
lemma Linked.nodeDown_spec (h : reg.Linked link) (n : String) :
    ∃ l, reg.nodeDown n = some (reg.removeAll l,
        l.map fun x => (x, (reg.owner x).bind Prod.fst)) ∧ reg.Cuts link l ∧
      ∀ x, x ∈ l ↔ reg.Registered x ∧ ∃ r, reg.getNodeId r = some n ∧ Below link x r := by
  cases hn : reg.byNode.lookup n with
  | none =>
    have hnone : ∀ r, reg.getNodeId r ≠ some n := by
      intro r hr
      rw [← h.byNode, hn] at hr
      exact not_mem_nil hr
    exact ⟨[], by simp [nodeDown, hn], cuts_nil reg link, by simp [hnone]⟩
  | some hosted =>
    have hhosted : ∀ r, r ∈ hosted.keys ↔ reg.getNodeId r = some n := by
      intro r
      rw [← h.byNode, hn]
      rfl
    obtain ⟨l, heq, hcuts, hmem⟩ := h.foldlM_remove_spec
      (fun portId parentPortId => (portId, parentPortId)) hosted.keys
      (fun _ hx => List.mem_toFinset.mpr hx) reg.card_ports_lt []
    refine ⟨l, ?_, hcuts, fun x => ?_⟩
    · rw [nodeDown, hn]
      simp only [removeRecursiveWithParent]
      rw [heq]
      rfl
    · simp only [hmem, hhosted]

lemma WellFormed.exit_spec (h : reg.WellFormed) (r : String) :
    ∃ l, reg.exit r = some (reg.removeAll l, l) ∧ reg.Cuts reg.parent l ∧
      ∀ x, x ∈ l ↔ reg.Registered x ∧ Below reg.parent x r :=
  h.linked.exit_spec r

lemma WellFormed.nodeDown_spec (h : reg.WellFormed) (n : String) :
    ∃ l, reg.nodeDown n = some (reg.removeAll l,
        l.map fun x => (x, (reg.owner x).bind Prod.fst)) ∧ reg.Cuts reg.parent l ∧
      ∀ x, x ∈ l ↔ reg.Registered x ∧ ∃ r, reg.getNodeId r = some n ∧ Below reg.parent x r :=
  h.linked.nodeDown_spec n

end RealmRegistry

end Fino.Cluster
