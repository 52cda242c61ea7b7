import Fino.Cluster.Ownership

/-!
# The loss of a node

The seed takes the realms below a lost node out of the tree, but it writes for each to the host of
its parent: it never orders a host to terminate a realm whose parent was on the lost node
(`orphan_not_terminated`). So a loss is handled to the end exactly when no realm in the tree that
the node has asked for runs on another node (`node_loss_cascades`).
-/

namespace Fino.Cluster

open Lib List Option RealmRegistry Lib.Forest
open Workflow (Time)

variable {V : Type}

/-- The message goes to the node. -/
def Sent.Reaches (n : String) : Sent V → Prop
  | .send nodeId _ => nodeId = n
  | .broadcastExcept nodeId _ => nodeId ≠ n

namespace SeedServer

variable {s t : SeedServer} {g : History V} {n x m r : String} {out : List (Sent V)}

/-- The port is hosted on the node, or descends from a port that is. -/
def GoesWith (s : SeedServer) (g : History V) (n x : String) : Prop :=
  s.registry.Registered x ∧ ∃ r, s.registry.getNodeId r = some n ∧ Below g.parent x r

/-- What the loss of the node does, by the history of spawns. -/
structure Cascades (s : SeedServer) (g : History V) (n : String) (t : SeedServer)
    (out : List (Sent V)) : Prop where
  /-- Nothing is sent to the node. -/
  quiet : ∀ m ∈ out, ¬ m.Reaches n
  /-- The other node that has asked for a lost realm is told to terminate it. -/
  told : ∀ x m, .send m (.terminate x) ∈ out ↔
    s.GoesWith g n x ∧ m ≠ n ∧ (g.spawned.lookup x).map (·.requesterNodeId) = some m
  /-- What goes with the node is neither registered nor routable afterwards. -/
  gone : ∀ x, s.GoesWith g n x → ¬ t.registry.Registered x ∧ t.portNodes.lookup x = none
  /-- The other ports are left as they are. -/
  left : ∀ x, ¬ s.GoesWith g n x → t.registry.owner x = s.registry.owner x ∧
    t.portNodes.lookup x = s.portNodes.lookup x

/-- Each realm elsewhere that descends from a port of the node is terminated there. -/
def TerminatesOrphans (s : SeedServer) (g : History V) (n : String) (out : List (Sent V)) : Prop :=
  ∀ x r o, s.registry.Registered x → s.registry.getNodeId r = some n → Descends g.parent x r →
    g.spawned.lookup x = some o → o.nodeId ≠ n → .send o.nodeId (.terminate x) ∈ out

/-- No realm in the tree that the node has asked for runs on another node. -/
def NoOrphans (s : SeedServer) (g : History V) (n : String) : Prop :=
  ∀ x o, s.registry.Registered x → g.spawned.lookup x = some o → o.requesterNodeId = n →
    o.nodeId = n

lemma mem_orphanNotice {p : String} : .send m (.terminate x) ∈ s.orphanNotice (V := V) n p ↔
    x = p ∧ m ≠ n ∧ ∃ q, s.registry.parent x = some q ∧ s.registry.getNodeId q = some m := by
  simp only [orphanNotice, mem_toList, map_eq_some_iff, bind_eq_some_iff,
    filter_eq_some_iff, decide_eq_true_eq]
  constructor
  · rintro ⟨h, ⟨q, hq, hh, hne⟩, heq⟩
    cases heq
    exact ⟨rfl, hne, q, hq, hh⟩
  · rintro ⟨rfl, hne, q, hq, hh⟩
    exact ⟨m, ⟨q, hq, hh, hne⟩, rfl⟩

/-- In the tree, the parent of a realm is on the node that has asked for it. -/
lemma Owned.parent_host_iff (h : Owned (s, g)) (hx : s.registry.Registered x) :
    (∃ q, s.registry.parent x = some q ∧ s.registry.getNodeId q = some m) ↔
      (g.spawned.lookup x).map (·.requesterNodeId) = some m := by
  rw [h.parent_eq hx, History.parent]
  cases ho : g.spawned.lookup x with
  | none => simp
  | some o => simp [(h.spawned x o ho hx).2]

/-- What is below a port in the registry is what is below it in the history. -/
lemma Owned.below_iff (h : Owned (s, g)) (hx : s.registry.Registered x) :
    Below s.registry.parent x r ↔ Below g.parent x r := by
  rw [below_iff_eq_or_descends, below_iff_eq_or_descends]
  exact or_congr_right (h.descends_iff hx)

lemma Owned.cascades (h : Owned (s, g)) (n : String) :
    ∃ t out, s.loseNode n = some (t, out) ∧ Cascades s g n t out := by
  obtain ⟨pending, l, -, hprunes, hmem, heq⟩ := h.sound.loseNode n
  have hl : ∀ x, x ∈ l ↔ s.GoesWith g n x := by
    intro x
    rw [hmem]
    refine and_congr_right fun hx => ?_
    simp only [h.below_iff hx]
  refine ⟨_, _, heq, ⟨?_, ?_, ?_, ?_⟩⟩
  · intro m hm
    rcases mem_cons.mp hm with rfl | hm
    · exact fun hreaches => hreaches rfl
    rcases mem_append.mp hm with hm | hm
    · -- A refused spawn was asked for by another node.
      obtain ⟨-, -, -, hrefused⟩ := dropSpawns_spec s n
      obtain ⟨k, p, -, hne, -, rfl⟩ := hrefused m hm
      exact hne
    · obtain ⟨p, -, hp⟩ := mem_flatMap.mp hm
      simp only [orphanNotice, mem_toList, map_eq_some_iff, bind_eq_some_iff,
        filter_eq_some_iff, decide_eq_true_eq] at hp
      obtain ⟨host, ⟨q, -, -, hne⟩, rfl⟩ := hp
      exact hne
  · intro x m
    have hrefused : (.send m (.terminate x) : Sent V) ∉ (s.dropSpawns n).2 := by
      intro hm
      obtain ⟨-, -, -, hrefused⟩ := dropSpawns_spec (V := V) s n
      obtain ⟨k, p, -, -, -, heq⟩ := hrefused _ hm
      simp at heq
    simp only [mem_cons, reduceCtorEq, mem_append, hrefused, false_or,
      mem_flatMap, mem_orphanNotice, ← hl]
    constructor
    · rintro ⟨p, hp, rfl, hne, hparent⟩
      exact ⟨hp, hne, (h.parent_host_iff (hprunes.registered x hp)).mp hparent⟩
    · rintro ⟨hx, hne, hrequester⟩
      exact ⟨x, hx, rfl, hne, (h.parent_host_iff (hprunes.registered x hx)).mpr hrequester⟩
  · intro x hx
    rw [registry_prune, registered_removeAll, SeedServer.prune,
      lookup_portNodes_forget, if_pos ((hl x).mpr hx)]
    exact ⟨fun hreg => hreg.1 ((hl x).mpr hx), rfl⟩
  · intro x hx
    have hxl : x ∉ l := fun hxl => hx ((hl x).mp hxl)
    rw [registry_prune, owner_removeAll, if_neg hxl, SeedServer.prune,
      lookup_portNodes_forget, if_neg hxl]
    exact ⟨rfl, rfl⟩

/-- If the node has spawned nothing elsewhere, what descends from its ports is its own. -/
lemma NoOrphans.nodeId_eq (hs : NoOrphans s g n) (h : Owned (s, g)) (hx : s.registry.Registered x)
    (hr : s.registry.getNodeId r = some n)
    (hxr : Descends g.parent x r) : s.registry.getNodeId x = some n := by
  -- Along the chain from `x` up to `r`, every port is on the node because the one above it is.
  induction hxr using Relation.TransGen.head_induction_on with
  | @single x hstep =>
    obtain ⟨o, ho, hp⟩ := map_eq_some_iff.mp hstep
    have hhost := (h.spawned x o ho hx).2
    rw [hp, hr, Option.some.injEq] at hhost
    rw [h.getNodeId_eq ho hx, hs x o hx ho hhost.symm]
  | @head x y hstep hyr ih =>
    obtain ⟨o, ho, hp⟩ := map_eq_some_iff.mp hstep
    have hhost := (h.spawned x o ho hx).2
    have hy := ih (registered_iff_getNodeId.mpr ⟨_, hp ▸ hhost⟩)
    rw [hp, hy, Option.some.injEq] at hhost
    rw [h.getNodeId_eq ho hx, hs x o hx ho hhost.symm]

lemma Cascades.terminatesOrphans_iff (hc : Cascades s g n t out) (h : Owned (s, g)) :
    TerminatesOrphans s g n out ↔ NoOrphans s g n := by
  constructor
  · intro hterm x o hx ho hrequester
    by_contra hne
    have hparent : g.parent x = some o.parentPortId := by rw [History.parent, ho]; rfl
    have hhost : s.registry.getNodeId o.parentPortId = some n := by
      rw [← hrequester]
      exact (h.spawned x o ho hx).2
    have hsent := hterm x o.parentPortId o hx hhost (.single hparent) ho hne
    -- The only notice for `x` would go to the node that has asked for it, which is the lost one.
    obtain ⟨-, -, hto⟩ := (hc.told x o.nodeId).mp hsent
    rw [ho, map_some, Option.some.injEq, hrequester] at hto
    exact hne hto.symm
  · intro hs x r o hx hr hxr ho hne
    have hn := hs.nodeId_eq h hx hr hxr
    rw [h.getNodeId_eq ho hx, Option.some.injEq] at hn
    exact absurd hn hne

/-- In every run in which only ports without edges are registered, the loss of a node takes what
goes with it out of the tree, tells the surviving node that has asked for each lost realm, and sends
nothing to the node; and it has the orphans terminated exactly if no realm in the tree that the node
has asked for runs elsewhere. -/
theorem node_loss_cascades {nodeId : String}
    (h : Run stepNoting Registers (start nodeId, (.empty : History V)) (s, g)) (n : String) :
    ∃ t out, (∀ now m, s.react (.handle now n (.peerDown m)) = some (t, out)) ∧
      (∀ now timeout, s.Overdue now timeout n →
        s.react (.expire now timeout n) = some (t, out)) ∧
      Cascades s g n t out ∧ (TerminatesOrphans s g n out ↔ NoOrphans s g n) := by
  have howned : Owned (s, g) :=
    h.invariant (fun x a y hx hok hstep => hx.step hok hstep) (owned_start nodeId)
  obtain ⟨t, out, hlose, hcascades⟩ := howned.cascades n
  refine ⟨t, out, fun _ _ => hlose, fun now timeout hoverdue => ?_, hcascades,
    hcascades.terminatesOrphans_iff howned⟩
  rw [react, if_pos hoverdue, hlose]

/-- The node that has asked for a realm is told when its host is lost. -/
theorem lost_child_reported : ∃ (s : SeedServer) (g : History Unit),
    Run stepNoting Registers (start "seed", .empty) (s, g) ∧ NoOrphans s g "b" ∧
      ∃ t out, s.react (.handle 3 "b" (.peerDown "b")) = some (t, out) ∧
        .send "a" (.terminate "b/0") ∈ out ∧ ¬ t.registry.Registered "b/0" ∧
        TerminatesOrphans s g "b" out := by
  have hp : (exec (restrict stepNoting Registers) (start "seed", (.empty : History Unit))
      firstSpawn).bind (fun x => some (x.2.spawned.entries, x.1.registry.getNodeId "b/0")) =
      some ([⟨"b/0", ⟨"a/p", "a", "b"⟩⟩], some "b") := by decide +kernel
  obtain ⟨⟨s, g⟩, -, hrun, hp⟩ := Run.exists_of_exec hp
  simp only [Option.some.injEq, Prod.mk.injEq] at hp
  obtain ⟨hspawned, hhost⟩ := hp
  have hlookup : ∀ x o, g.spawned.lookup x = some o ↔ x = "b/0" ∧ o = ⟨"a/p", "a", "b"⟩ := by
    intro x o
    rw [← mem_def, AList.mem_lookup_iff, hspawned, mem_singleton]
    simp
  have hnone : NoOrphans s g "b" := by
    intro x o _ ho hrequester
    obtain ⟨-, rfl⟩ := (hlookup x o).mp ho
    exact absurd hrequester (by decide)
  obtain ⟨t, out, hdown, -, hcascades, horphans⟩ := node_loss_cascades hrun "b"
  have hgoes : s.GoesWith g "b" "b/0" :=
    ⟨registered_iff_getNodeId.mpr ⟨_, hhost⟩, "b/0", hhost, .refl⟩
  refine ⟨s, g, hrun, hnone, t, out, hdown 3 "b", ?_, (hcascades.gone _ hgoes).1,
    horphans.mpr hnone⟩
  refine (hcascades.told _ _).mpr ⟨hgoes, by decide, ?_⟩
  rw [(hlookup "b/0" _).mpr ⟨rfl, rfl⟩]
  rfl

/-- The node of the parent is lost, and the host of the realm is not told to terminate it. -/
theorem orphan_not_terminated :
    ((exec step (start "seed") firstSpawn).bind fun s =>
      (s.react (V := Unit) (.handle 3 "a" (.peerDown "a"))).map fun r =>
        (s.registry.owner "b/0", s.registry.getNodeId "a/p", r.2)) =
      some (some (some "a/p", "b"), some "a", [.broadcastExcept "a" (.peerDown "a")]) := by
  decide +kernel

end SeedServer

end Fino.Cluster
