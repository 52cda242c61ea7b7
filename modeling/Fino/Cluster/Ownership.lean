import Fino.Cluster.Seed
import Fino.Lib.Transition

/-!
# Exits in the realm tree

`History` remembers what the registry is to know: the parent of each realm, who asked for it, and
where it runs. `SPAWN` registers the parent port as a root even if it is registered, so a spawned
realm that spawns is cut off from its own parent, which is not told of its exit
(`exit_not_forwarded`). If only ports without edges are registered (`Registers`), the registry has
the edges of the history (`Owned`), and every exit is passed on once (`exits_passed_on`).
-/

namespace Fino.Cluster

open Lib List Option RealmRegistry AList Lib.Forest Sent
open Workflow (Time)

variable {V : Type}

/-! ## The history of the tree -/

/-- What a successful `SPAWN_ACK` says about a realm. -/
structure Origin where
  parentPortId : String
  requesterNodeId : String
  nodeId : String
deriving DecidableEq

/-- The realms whose successful `SPAWN_ACK` was handled, and what the seed has sent. -/
structure History (V : Type) where
  spawned : OrderedMap String Origin
  log : List (Sent V)

def History.empty : History V := ⟨∅, []⟩

def History.parent (g : History V) (x : String) : Option String :=
  (g.spawned.lookup x).map (·.parentPortId)

def Sent.message : Sent V → ClusterMessage V
  | .send _ msg => msg
  | .broadcastExcept _ msg => msg

def ClusterMessage.spawnId : ClusterMessage V → Option String
  | .spawn spawnReqId .. => some spawnReqId
  | _ => none

/-- The message tells of the end of the realm `x`, or orders it. -/
def Sent.isNoticeOf (x : String) : Sent V → Bool
  | .send _ (.realmExit exit) => exit.realmId = x
  | .send _ (.terminate realmId) => realmId = x
  | _ => false

def History.notices (g : History V) (x : String) : ℕ := g.log.countP (isNoticeOf x)

namespace SeedServer

/-- The realm that the input makes known as spawned. -/
def acked (s : SeedServer) : Input V → Option (String × Origin)
  | .handle _ sender (.spawnAck spawnReqId childPortId true _) =>
    (s.pendingSpawns.lookup spawnReqId).map fun info =>
      (childPortId, ⟨info.parentPortId, info.requesterNodeId, sender⟩)
  | _ => none

def note (g : History V) (s : SeedServer) (a : Input V) (_ : SeedServer) : History V where
  spawned := (s.acked a).elim g.spawned fun c => g.spawned.set c.1 c.2
  log := g.log ++ s.sends a

def stepNoting : SeedServer × History V → Input V → Option (SeedServer × History V) :=
  watch step note

/-- Only ports without edges are registered. `SPAWN` comes from the node of a port that was not
spawned and has no children; `SPAWN_ACK` names a new realm that has not spawned, and finds the
parent port on the node that has asked. -/
def Registers (x : SeedServer × History V) : Input V → Prop
  | .handle _ sender (.spawn _ parentPortId _) => x.1.selectTarget sender = none ∨
      (sender ≠ "" ∧ parentPortId ≠ "" ∧ x.1.registry.Free parentPortId sender ∧
        parentPortId ∉ x.2.spawned)
  | .handle _ sender (.spawnAck spawnReqId childPortId true _) =>
    ∀ info ∈ x.1.pendingSpawns.lookup spawnReqId,
      sender ≠ "" ∧ childPortId ≠ "" ∧ childPortId ≠ info.parentPortId ∧
        x.1.registry.Free childPortId sender ∧
        x.1.registry.getNodeId info.parentPortId = some info.requesterNodeId ∧
        childPortId ∉ x.2.spawned
  | _ => True

instance (reg : RealmRegistry) (portId nodeId : String) : Decidable (reg.Free portId nodeId) := by
  unfold Free
  infer_instance

instance (x : SeedServer × History V) (a : Input V) : Decidable (Registers x a) := by
  unfold Registers
  split <;> infer_instance

/-! ## What a step can do -/

def Input.exit : Input V → Option RealmExitMessage
  | .handle _ _ (.realmExit exit) => some exit
  | _ => none

def Input.joins : Input V → Option String
  | .handle _ sender (.hello ..) => some sender
  | _ => none

def Input.lost : Input V → Option String
  | .handle _ sender (.peerDown _) => some sender
  | .expire _ _ nodeId => some nodeId
  | _ => none

/-- What a step of a sound seed that registers without loss can do, and what it sends. -/
inductive Move (s : SeedServer) (g : History V) : Input V → SeedServer → List (Sent V) → Prop
  /-- The tree and the pending spawns are left alone; an exit may be held. -/
  | idle {a : Input V} {t : SeedServer} {out : List (Sent V)} (hacked : s.acked a = none)
      (hlost : a.lost = none) (hregistry : t.registry = s.registry)
      (hnodes : t.portNodes = s.portNodes)
      (hpending : ∀ r, t.pendingSpawns.lookup r = s.pendingSpawns.lookup r)
      (hpeers : ∀ n, n ∈ t.peers ↔ n ∈ s.peers ∨ a.joins = some n)
      (hexits : ∀ y e, t.pendingRealmExits.lookup y = some e →
        s.pendingRealmExits.lookup y = some e ∨ a.exit = some e)
      (hout : ∀ m ∈ out, m.message.spawnId = none) : Move s g a t out
  /-- A spawn is forwarded. -/
  | pass {now : Time} {n r p target : String} {config : SerializedSpawnConfig V} (hnode : n ≠ "")
      (hport : p ≠ "") (hfree : s.registry.Free p n) (hnew : p ∉ g.spawned) :
      Move s g (.handle now n (.spawn r p config)) (s.admitSpawn n r p target)
        [.send target (.spawn r p config)]
  /-- A pending spawn is acknowledged. -/
  | settle {now : Time} {n r c : String} {ok : Bool} {error : Option String} {info : PendingSpawn}
      (hinfo : s.pendingSpawns.lookup r = some info)
      (hok : ok = true → n ≠ "" ∧ c ≠ "" ∧ c ≠ info.parentPortId ∧ s.registry.Free c n ∧
        s.registry.getNodeId info.parentPortId = some info.requesterNodeId ∧ c ∉ g.spawned) :
      Move s g (.handle now n (.spawnAck r c ok error)) (s.settleSpawn n r c ok info)
        [.send info.requesterNodeId (.spawnAck r c ok error)]
  /-- An exit that arrives or was held is processed, maybe after frames. -/
  | exit {a : Input V} {e : RealmExitMessage} {s' : SeedServer} {l : List String}
      (routed : List (Sent V)) (hacked : s.acked a = none) (hlost : a.lost = none)
      (hjoins : a.joins = none)
      (he : a.exit = some e ∨ ∃ y, s.pendingRealmExits.lookup y = some e)
      (hregistry : s'.registry = s.registry) (hnodes : s'.portNodes = s.portNodes)
      (hpending : s'.pendingSpawns = s.pendingSpawns) (hpeers : s'.peers = s.peers)
      (hexits : ∀ y e, s'.pendingRealmExits.lookup y = some e →
        s.pendingRealmExits.lookup y = some e)
      (hl : s.registry.Cuts s.registry.parent l)
      (hmem : ∀ x, x ∈ l ↔ s.registry.Registered x ∧ Below s.registry.parent x e.realmId)
      (hrouted : ∀ m ∈ routed, m.message.spawnId = none) :
      Move s g a (s'.prune l) (routed ++ s.exitNotices e l)
  /-- A node is lost. -/
  | lose {a : Input V} {n : String} {pendingSpawns : OrderedMap String PendingSpawn}
      {l : List String} {out : List (Sent V)} (hlost : a.lost = some n)
      (hpending : ∀ k p, pendingSpawns.lookup k = some p ↔
        s.pendingSpawns.lookup k = some p ∧ PendingSpawn.Survives p n)
      (hl : s.registry.Cuts s.registry.parent l)
      (hmem : ∀ x, x ∈ l ↔ s.registry.Registered x ∧
        ∃ r, s.registry.getNodeId r = some n ∧ Below s.registry.parent x r)
      (hout : ∀ m ∈ out, m.message.spawnId = none) :
      Move s g a (SeedServer.prune { s.withoutPeer n with pendingSpawns := pendingSpawns } l) out

variable {s t : SeedServer} {g g' : History V} {a : Input V} {out : List (Sent V)}
  {ready : List PortMessage} {m : Sent V}

lemma spawnId_of_mem_routed
    (hm : m ∈ ready.filterMap fun msg => s.toHost msg.toPort (.portMsg msg)) :
    m.message.spawnId = none := by
  obtain ⟨msg, -, heq⟩ := mem_filterMap.mp hm
  obtain ⟨n, -, rfl⟩ := map_eq_some_iff.mp heq
  rfl

variable {l : List String} {n : String}

lemma spawnId_of_mem_lose (hm : m ∈ broadcastExcept n (.peerDown n) ::
      ((s.dropSpawns n).2 ++ l.flatMap (s.orphanNotice n))) : m.message.spawnId = none := by
  rcases mem_cons.mp hm with rfl | hm
  · rfl
  rcases mem_append.mp hm with hm | hm
  · obtain ⟨-, -, -, hrefused⟩ := dropSpawns_spec s n
    obtain ⟨k, p, -, -, -, rfl⟩ := hrefused m hm
    rfl
  · obtain ⟨p, -, hp⟩ := mem_flatMap.mp hm
    obtain ⟨host, -, rfl⟩ := map_eq_some_iff.mp (mem_toList.mp hp)
    rfl

/-- A frame completes others, and perhaps an exit that is held back. -/
lemma Move.of_portMsg (h : s.Sound) {now : Time} {sender : String} {msg : PortMessage}
    (hreact : s.react (.handle now sender (.portMsg msg)) = some (t, out)) :
    Move s g (.handle now sender (.portMsg msg)) t out := by
  simp only [react, handle] at hreact
  split at hreact
  · cases hreact
    exact .idle rfl rfl rfl rfl (fun _ => rfl) (by simp [Input.joins, takeOrderedPortMessages])
      (fun _ _ he => .inl he) fun m hm => spawnId_of_mem_routed hm
  · next exit hexit =>
    split_ifs at hreact
    · have hsound : SeedServer.Sound { (s.takeOrderedPortMessages msg).1 with
            pendingRealmExits :=
              (s.takeOrderedPortMessages msg).1.pendingRealmExits.erase msg.fromPort } :=
        h.congr rfl rfl
      obtain ⟨l, hl, hmem, heq⟩ := hsound.handleRealmExit exit
      rw [heq] at hreact
      cases hreact
      refine .exit _ rfl rfl rfl (.inr ⟨msg.fromPort, hexit⟩) rfl rfl rfl rfl (fun y e he => ?_)
        hl hmem fun m hm => spawnId_of_mem_routed hm
      rw [lookup_erase_eq_ite] at he
      split_ifs at he
      exact he
    · cases hreact
      exact .idle rfl rfl rfl rfl (fun _ => rfl)
        (by simp [Input.joins, takeOrderedPortMessages])
        (fun _ _ he => .inl he) fun m hm => spawnId_of_mem_routed hm

/-- Every reaction of a sound seed that registers without loss is one of the moves. -/
lemma Move.of_react (h : s.Sound) (hok : Registers (s, g) a)
    (hreact : s.react a = some (t, out)) : Move s g a t out := by
  have hlose : ∀ n, a.lost = some n → s.loseNode n = some (t, out) → Move s g a t out := by
    intro n hlost hn
    obtain ⟨pending, l, hpending, hl, hmem, heq⟩ := h.loseNode n
    rw [heq] at hn
    cases hn
    exact .lose hlost hpending hl hmem fun m hm => spawnId_of_mem_lose hm
  cases a with
  | expire now timeout nodeId =>
    simp only [react] at hreact
    split_ifs at hreact
    exact hlose nodeId rfl hreact
  | handle now sender msg =>
    cases msg with
    | hello _ load =>
      cases hreact
      refine .idle rfl rfl rfl rfl (fun _ => rfl) (fun n => ?_) (fun _ _ he => .inl he) ?_
      · simp [Input.joins, or_comm, eq_comm]
      · intro m hm
        simp only [mem_cons, not_mem_nil, or_false] at hm
        rcases hm with rfl | rfl <;> rfl
    | welcome | peerUp | terminate | heartbeat =>
      cases hreact
      exact .idle rfl rfl rfl rfl (fun _ => rfl) (by simp [Input.joins])
        (fun _ _ he => .inl he) (by simp)
    | peerDown nodeId => exact hlose sender rfl hreact
    | spawn spawnReqId parentPortId config =>
      simp only [react, handle] at hreact
      cases htarget : s.selectTarget sender with
      | none =>
        rw [htarget] at hreact
        cases hreact
        refine .idle rfl rfl rfl rfl (fun _ => rfl) (by simp [Input.joins])
          (fun _ _ he => .inl he) ?_
        simp [message, ClusterMessage.spawnId]
      | some target =>
        rw [htarget] at hreact
        cases hreact
        obtain hnone | ⟨hnode, hport, hfree, hnew⟩ := hok
        · rw [hnone] at htarget
          simp at htarget
        · exact .pass hnode hport hfree hnew
    | spawnAck spawnReqId childPortId ok error =>
      simp only [react, handle] at hreact
      cases hinfo : s.pendingSpawns.lookup spawnReqId with
      | none =>
        rw [hinfo] at hreact
        cases hreact
        refine .idle ?_ rfl rfl rfl (fun r => ?_) (by simp [Input.joins])
          (fun _ _ he => .inl he) (by simp)
        · cases ok <;> simp [acked, hinfo]
        · dsimp only
          rw [lookup_erase_eq_ite]
          split_ifs with hr
          · rw [hr, hinfo]
          · rfl
      | some info =>
        rw [hinfo] at hreact
        cases hreact
        refine .settle hinfo fun htrue => ?_
        subst htrue
        exact hok info hinfo
    | realmExit exit =>
      simp only [react, handle] at hreact
      split_ifs at hreact
      · cases hreact
        refine .idle rfl rfl rfl rfl (fun _ => rfl) (by simp [Input.joins]) (fun y e he => ?_)
          (by simp)
        rw [lookup_set] at he
        split_ifs at he
        · exact .inr he
        · exact .inl he
      · obtain ⟨l, hl, hmem, heq⟩ := h.handleRealmExit exit
        rw [heq] at hreact
        cases hreact
        exact .exit [] rfl rfl rfl (.inl rfl) rfl rfl rfl rfl (fun _ _ he => he) hl hmem (by simp)
    | portMsg => exact Move.of_portMsg h hreact

/-- What a step does to the tree of the registry and to the history of spawns. -/
inductive TreeStep (s : SeedServer) (g : History V) (t : SeedServer) (g' : History V) : Prop
  | keeps (hregistry : t.registry = s.registry) (hnodes : t.portNodes = s.portNodes)
      (hspawned : g'.spawned = g.spawned) : TreeStep s g t g'
  | root (p n : String) (hport : p ≠ "") (hnode : n ≠ "") (hfree : s.registry.Free p n)
      (hnew : p ∉ g.spawned) (hregistry : t.registry = s.registry.register p none n)
      (hnodes : t.portNodes = s.portNodes.set p n) (hspawned : g'.spawned = g.spawned) :
      TreeStep s g t g'
  | child (c : String) (o : Origin) (hport : c ≠ "") (hnode : o.nodeId ≠ "")
      (hne : c ≠ o.parentPortId) (hfree : s.registry.Free c o.nodeId)
      (hparent : s.registry.getNodeId o.parentPortId = some o.requesterNodeId)
      (hnew : c ∉ g.spawned)
      (hregistry : t.registry = s.registry.register c (some o.parentPortId) o.nodeId)
      (hnodes : t.portNodes = s.portNodes.set c o.nodeId)
      (hspawned : g'.spawned = g.spawned.set c o) : TreeStep s g t g'
  | prune (s' : SeedServer) (l : List String) (heq : t = s'.prune l)
      (hl : s.registry.Cuts s.registry.parent l) (hregistry : s'.registry = s.registry)
      (hnodes : s'.portNodes = s.portNodes) (hspawned : g'.spawned = g.spawned) :
      TreeStep s g t g'

lemma acked_of_lost (h : a.lost = some n) : s.acked a = none := by
  cases a with
  | expire => rfl
  | handle _ _ msg => cases msg <;> first | rfl | exact absurd h (by simp [Input.lost])

lemma Move.treeStep (h : Move s g a t out) (t' : SeedServer) :
    TreeStep s g t (note g s a t') := by
  have hkeeps : s.acked a = none → (note g s a t').spawned = g.spawned := by
    intro hacked
    rw [note, hacked]
    rfl
  cases h with
  | idle hacked _ hregistry hnodes => exact .keeps hregistry hnodes (hkeeps hacked)
  | @pass _ n _ p _ _ hnode hport hfree hnew =>
    exact .root p n hport hnode hfree hnew rfl rfl rfl
  | @settle _ n r c ok _ info hinfo hok =>
    cases ok with
    | false => exact .keeps rfl rfl rfl
    | true =>
      obtain ⟨hnode, hport, hne, hfree, hparent, hnew⟩ := hok rfl
      refine .child c ⟨info.parentPortId, info.requesterNodeId, n⟩ hport hnode hne hfree hparent
        hnew rfl rfl ?_
      simp [note, acked, hinfo]
  | exit _ hacked _ _ _ hregistry hnodes _ _ _ hl =>
    exact .prune _ _ rfl hl hregistry hnodes (hkeeps hacked)
  | lose hlost _ hl => exact .prune _ _ rfl hl rfl rfl (hkeeps (acked_of_lost hlost))

lemma TreeStep.of_step (h : s.Sound) (hok : Registers (s, g) a)
    (hstep : stepNoting (s, g) a = some (t, g')) : TreeStep s g t g' := by
  obtain ⟨hnext, hnote⟩ := watch_eq_some.mp hstep
  obtain rfl : g' = note g s a t := hnote
  obtain ⟨⟨t, out⟩, hreact, rfl⟩ := map_eq_some_iff.mp hnext
  exact (Move.of_react h hok hreact).treeStep t

/-! ## The registry has the edges of the history -/

/-- The seed is sound, and its tree is the part of the history that has not ended. -/
structure Owned (x : SeedServer × History V) : Prop where
  sound : x.1.Sound
  parents : ∀ c p, x.1.registry.parent c = some p → x.2.parent c = some p
  spawned : ∀ c o, x.2.spawned.lookup c = some o → x.1.registry.Registered c →
    x.1.registry.owner c = some (some o.parentPortId, o.nodeId) ∧
      x.1.registry.getNodeId o.parentPortId = some o.requesterNodeId

lemma owned_start (nodeId : String) : Owned (start nodeId, (.empty : History V)) where
  sound := sound_start nodeId
  parents := fun c p h => absurd h (by simp [start, parent,
    getParentPortId, empty])
  spawned := fun c o h => absurd h (by simp [History.empty])

variable {x : SeedServer × History V}

lemma Owned.parent_eq (h : Owned x) {c : String}
    (hc : x.1.registry.Registered c) : x.1.registry.parent c = x.2.parent c := by
  cases hp : x.1.registry.parent c with
  | some p => exact (h.parents c p hp).symm
  | none =>
    rw [History.parent]
    cases ho : x.2.spawned.lookup c with
    | none => rfl
    | some o =>
      -- A spawned realm has its parent, which is not the empty identifier.
      obtain ⟨howner, hhost⟩ := h.spawned c o ho hc
      have hne : o.parentPortId ≠ "" :=
        h.sound.ports _ (registered_iff_getNodeId.mpr ⟨_, hhost⟩)
      have hsome : x.1.registry.parent c = some o.parentPortId := by
        rw [parent, getParentPortId_eq, howner]
        exact truthy_eq_some.mpr ⟨rfl, hne⟩
      rw [hsome] at hp
      simp at hp

/-- A registered realm descends from another in the registry if it does in the history. -/
lemma Owned.descends_iff (h : Owned x) {c r : String} (hc : x.1.registry.Registered c) :
    Descends x.1.registry.parent c r ↔ Descends x.2.parent c r := by
  refine ⟨fun hcr => Relation.TransGen.mono h.parents _ _ hcr, fun hcr => ?_⟩
  -- Going up from a registered realm, one meets registered ports only.
  induction hcr using Relation.TransGen.head_induction_on with
  | single hstep => exact .single ((h.parent_eq hc).trans hstep)
  | head hstep _ ih =>
    have hp := (h.parent_eq hc).trans hstep
    refine .head hp (ih ?_)
    exact registered_of_mem_getChildren (h.sound.registry.forest.mem_children.mpr hp)

lemma registered_register {reg : RealmRegistry} {p x : String} {q : Option String} :
    (reg.register p q n).Registered x ↔ x = p ∨ reg.Registered x := by
  rw [registered_iff, owner_register, registered_iff]
  split_ifs with hx <;> simp [hx]

lemma parent_congr (h : g'.spawned = g.spawned) : g'.parent = g.parent := by
  funext c
  rw [History.parent, h, History.parent]

/-- A spawned realm is not touched when another port is registered, even if this is its parent. -/
lemma Owned.spawned_register (hs : Owned (s, g)) {p c : String} {q : Option String} {o : Origin}
    (hfree : s.registry.Free p n) (hcp : c ≠ p) (ho : g.spawned.lookup c = some o)
    (hc : (s.registry.register p q n).Registered c) :
    (s.registry.register p q n).owner c = some (some o.parentPortId, o.nodeId) ∧
      (s.registry.register p q n).getNodeId o.parentPortId = some o.requesterNodeId := by
  rw [registered_register, or_iff_right hcp] at hc
  obtain ⟨howner, hhost⟩ := hs.spawned c o ho hc
  rw [owner_register, if_neg hcp, getNodeId_register]
  refine ⟨howner, ?_⟩
  -- If the parent of `c` is registered again, it is on the node that it was on.
  split_ifs with hop
  · rw [hop] at hhost
    exact congrArg some (hfree.getNodeId_eq_some hhost).symm
  · exact hhost

/-- Of a part that is closed downwards nothing is left, and the rest is as it was. -/
lemma Owned.prune (hs : Owned (s, g)) {s' : SeedServer}
    (hl : s.registry.Cuts s.registry.parent l) (hregistry : s'.registry = s.registry)
    (hnodes : s'.portNodes = s.portNodes) : Owned (s'.prune l, g) := by
  have hsound : s'.Sound := hs.sound.congr hregistry hnodes
  refine ⟨hsound.prune (hregistry ▸ hl), fun c p hp => ?_, fun c o ho hc => ?_⟩
  · dsimp only at hp
    rw [registry_prune] at hp
    have hp' := parent_of_removeAll hp
    rw [hregistry] at hp'
    exact hs.parents c p hp'
  · dsimp only at ho hc ⊢
    rw [registry_prune, registered_removeAll, hregistry] at hc
    obtain ⟨howner, hhost⟩ := hs.spawned c o ho hc.2
    -- The parent is left too, since `c` is below it.
    have hparent : o.parentPortId ∉ l := by
      intro hmem
      have hp : s.registry.parent c = some o.parentPortId := by
        rw [hs.parent_eq hc.2, History.parent, ho]
        rfl
      exact hc.1 (hl.closed c _ hp hmem)
    rw [registry_prune, owner_removeAll, if_neg hc.1, getNodeId_removeAll, if_neg hparent,
      hregistry]
    exact ⟨howner, hhost⟩

/-- The registry still has the edges of the history, case by case. -/
lemma TreeStep.owned (hs : Owned (s, g)) (hstep : TreeStep s g t g') : Owned (t, g') := by
  cases hstep with
  | keeps hregistry hnodes hspawned =>
    refine ⟨hs.sound.congr hregistry hnodes, ?_, ?_⟩
    · dsimp only
      rw [hregistry, parent_congr hspawned]
      exact hs.parents
    · dsimp only
      rw [hregistry, hspawned]
      exact hs.spawned
  | root p n hport hnode hfree hnew hregistry hnodes hspawned =>
    refine ⟨hs.sound.register hfree (by simp [truthy]) hport hnode hnodes hregistry, ?_, ?_⟩
    · dsimp only
      intro c q hq
      rw [hregistry, parent_register] at hq
      rw [parent_congr hspawned]
      split_ifs at hq
      · exact absurd hq (by simp [truthy])
      · exact hs.parents c q hq
    · dsimp only
      intro c o ho hc
      rw [hspawned] at ho
      have hcp : c ≠ p := by
        rintro rfl
        exact hnew (lookup_isSome.mp (by rw [ho]; rfl))
      rw [hregistry] at hc ⊢
      exact hs.spawned_register hfree hcp ho hc
  | child c o hport hnode hne hfree hhost hnew hregistry hnodes hspawned =>
    have hreg : s.registry.Registered o.parentPortId :=
      registered_iff_getNodeId.mpr ⟨_, hhost⟩
    have htruthy : truthy (some o.parentPortId) = some o.parentPortId :=
      truthy_eq_some.mpr ⟨rfl, hs.sound.ports _ hreg⟩
    have hlookup : ∀ x, g'.spawned.lookup x = if x = c then some o else g.spawned.lookup x := by
      intro x
      rw [hspawned, lookup_set]
    refine ⟨hs.sound.register hfree ?_ hport hnode hnodes hregistry, ?_, ?_⟩
    · intro q hq
      rw [htruthy, some.injEq] at hq
      exact hq ▸ ⟨hne.symm, hreg⟩
    · dsimp only
      intro x q hq
      rw [hregistry, parent_register] at hq
      rw [History.parent, hlookup]
      split_ifs at hq ⊢ with hx
      · rw [htruthy] at hq
        exact hq
      · exact hs.parents x q hq
    · dsimp only
      intro x o' ho' hx
      rw [hlookup] at ho'
      rw [hregistry] at hx ⊢
      by_cases hxc : x = c
      · rw [if_pos hxc] at ho'
        obtain rfl : o = o' := some.inj ho'
        rw [owner_register, getNodeId_register, if_pos hxc, if_neg hne.symm]
        exact ⟨rfl, hhost⟩
      · rw [if_neg hxc] at ho'
        exact hs.spawned_register hfree hxc ho' hx
  | prune s' l heq hl hregistry hnodes hspawned =>
    have hpruned := hs.prune hl hregistry hnodes
    subst heq
    refine ⟨hpruned.sound, ?_, ?_⟩
    · rw [parent_congr hspawned]
      exact hpruned.parents
    · rw [hspawned]
      exact hpruned.spawned

variable {y : SeedServer × History V}

/-- A step that registers without loss keeps the tree the part of the history that has not ended. -/
lemma Owned.step (hx : Owned x) (hok : Registers x a)
    (hstep : stepNoting x a = some y) : Owned y :=
  (TreeStep.of_step hx.sound hok hstep).owned hx

/-! ## Exits -/

/-- What an exit sends: the exit to the node that has asked, if the realm is in the tree, and the
order to terminate to the node of every descendant in the tree. -/
def PassesOn (s : SeedServer) (g : History V) (exit : RealmExitMessage) (out : List (Sent V)) :
    Prop :=
  ∃ ended : List (String × String),
    out = (if s.registry.Registered exit.realmId then
        (g.spawned.lookup exit.realmId).map fun o => send o.requesterNodeId (.realmExit exit)
        else none).toList ++ ended.map (fun t => .send t.2 (.terminate t.1)) ∧
      (ended.map Prod.fst).Nodup ∧
      ∀ x n, (x, n) ∈ ended ↔ s.registry.Registered x ∧ Descends g.parent x exit.realmId ∧
        (g.spawned.lookup x).map (·.nodeId) = some n

/-- The exit that was held until the arrival of the frame. -/
def dueExit (s : SeedServer) (msg : PortMessage) : Option RealmExitMessage :=
  (s.pendingRealmExits.lookup msg.fromPort).filter fun exit =>
    exit.lastPortSeq ≤ (s.takeOrderedPortMessages msg).1.routedPortSequence msg.fromPort

/-- An exit is processed at once, or held until the frames before it are routed; nothing else tells
of the end of a realm. -/
def Answers (s : SeedServer) (g : History V) (t : SeedServer) (out : List (Sent V)) :
    Input V → Prop
  | .handle _ _ (.realmExit exit) =>
    if s.routedPortSequence exit.realmId < exit.lastPortSeq then
      out = [] ∧ t.pendingRealmExits.lookup exit.realmId = some exit
    else PassesOn s g exit out
  | .handle _ _ (.portMsg msg) =>
    ∃ routed rest, out = routed ++ rest ∧ (∀ x, ∀ m ∈ routed, isNoticeOf x m = false) ∧
      match s.dueExit msg with
      | some exit => PassesOn s g exit rest
      | none => rest = []
  | _ => ∀ x, ∀ m ∈ out, isNoticeOf x m = false

/-- The step registers without loss, and no node is lost. -/
def Orderly (x : SeedServer × History V) (a : Input V) : Prop := Registers x a ∧ a.lost = none

instance (x : SeedServer × History V) (a : Input V) : Decidable (Orderly x a) :=
  inferInstanceAs (Decidable (_ ∧ _))

lemma exists_of_descends {x r : String} (h : Descends g.parent x r) :
    ∃ o, g.spawned.lookup x = some o := by
  obtain ⟨y, hy, -⟩ := Relation.TransGen.head'_iff.mp h
  obtain ⟨o, ho, -⟩ := map_eq_some_iff.mp hy
  exact ⟨o, ho⟩

lemma Owned.getNodeId_eq {x : String} {o : Origin} (h : Owned (s, g))
    (ho : g.spawned.lookup x = some o) (hreg : s.registry.Registered x) :
    s.registry.getNodeId x = some o.nodeId := by
  rw [RealmRegistry.getNodeId_eq, (h.spawned x o ho hreg).1]
  rfl

variable {exit : RealmExitMessage}

lemma Owned.passesOn (h : Owned (s, g)) (hl : l.Nodup)
    (hmem : ∀ x, x ∈ l ↔ s.registry.Registered x ∧ Below s.registry.parent x exit.realmId) :
    PassesOn s g exit (s.exitNotices exit l) := by
  have hforest := h.sound.registry.forest
  refine ⟨s.terminated exit.realmId l, ?_, ?_, ?_⟩
  · rw [exitNotices]
    by_cases hreg : s.registry.Registered exit.realmId
    · rw [if_pos hreg, h.parent_eq hreg, History.parent]
      cases ho : g.spawned.lookup exit.realmId with
      | none => rfl
      | some o =>
        simp only [map_some, bind_some]
        rw [(h.spawned _ o ho hreg).2]
        rfl
    · rw [if_neg hreg]
      cases hp : s.registry.parent exit.realmId with
      | none => rfl
      | some p => exact absurd (registered_of_parent hp) hreg
  · rw [terminated, map_filterMap]
    refine hl.filterMap fun p q x hp hq => ?_
    -- What is noted for a port names the port.
    have hname : ∀ p, x ∈ (if p = exit.realmId then none else
        (s.registry.getNodeId p).map fun n => (p, n)).map Prod.fst → x = p := by
      intro p hp
      split_ifs at hp
      · simp at hp
      · simp only [Option.map_map, mem_def, map_eq_some_iff] at hp
        obtain ⟨n, -, rfl⟩ := hp
        rfl
    rw [← hname p hp, ← hname q hq]
  · intro x n
    have hterminated : (x, n) ∈ s.terminated exit.realmId l ↔
        x ∈ l ∧ x ≠ exit.realmId ∧ s.registry.getNodeId x = some n := by
      simp only [terminated, mem_filterMap]
      constructor
      · rintro ⟨p, hp, heq⟩
        split_ifs at heq with hne
        obtain ⟨m, hm, hpair⟩ := map_eq_some_iff.mp heq
        cases hpair
        exact ⟨hp, hne, hm⟩
      · rintro ⟨hx, hne, hn⟩
        exact ⟨x, hx, by rw [if_neg hne, hn]; rfl⟩
    rw [hterminated, hmem, below_iff_eq_or_descends]
    constructor
    · rintro ⟨⟨hreg, hbelow⟩, hne, hn⟩
      have hdesc := hbelow.resolve_left hne
      have hhist := (h.descends_iff hreg).mp hdesc
      obtain ⟨o, ho⟩ := exists_of_descends hhist
      refine ⟨hreg, hhist, ?_⟩
      rw [ho, map_some, ← h.getNodeId_eq ho hreg, hn]
    · rintro ⟨hreg, hhist, hn⟩
      have hdesc := (h.descends_iff hreg).mpr hhist
      obtain ⟨o, ho⟩ := exists_of_descends hhist
      refine ⟨⟨hreg, .inr hdesc⟩, ?_, ?_⟩
      · rintro rfl
        exact hforest.not_descends_self _ hdesc
      · rw [ho, map_some] at hn
        rw [h.getNodeId_eq ho hreg, hn]

lemma PassesOn.countP (h : Owned (s, g)) (hout : PassesOn s g exit out)
    (hmem : ∀ x, x ∈ l ↔ s.registry.Registered x ∧ Below s.registry.parent x exit.realmId)
    (c : String) :
    out.countP (isNoticeOf c) = if c ∈ g.spawned ∧ c ∈ l then 1 else 0 := by
  obtain ⟨ended, rfl, hnodup, hended⟩ := hout
  have hdescendants : (ended.map fun t => (.send t.2 (.terminate t.1) : Sent V)).countP
      (isNoticeOf c) = (ended.map Prod.fst).count c := by
    rw [List.countP_map, List.count, List.countP_map]
    congr 1
  have hin : c ∈ ended.map Prod.fst ↔ c ∈ g.spawned ∧ c ∈ l ∧ c ≠ exit.realmId := by
    rw [List.mem_map, hmem, below_iff_eq_or_descends]
    constructor
    · rintro ⟨⟨x, n⟩, hx, rfl⟩
      obtain ⟨hreg, hhist, -⟩ := (hended x n).mp hx
      obtain ⟨o, ho⟩ := exists_of_descends hhist
      have hdesc := (h.descends_iff hreg).mpr hhist
      refine ⟨lookup_isSome.mp (by rw [ho]; rfl), ⟨hreg, .inr hdesc⟩, ?_⟩
      rintro rfl
      exact h.sound.registry.forest.not_descends_self _ hdesc
    · rintro ⟨hspawned, ⟨hreg, hbelow⟩, hne⟩
      obtain ⟨o, ho⟩ := isSome_iff_exists.mp (lookup_isSome.mpr hspawned)
      have hhist := (h.descends_iff hreg).mp (hbelow.resolve_left hne)
      exact ⟨(c, o.nodeId), (hended c o.nodeId).mpr ⟨hreg, hhist, by rw [ho]; rfl⟩, rfl⟩
  rw [countP_append, hdescendants, hnodup.count, if_congr hin rfl rfl]
  by_cases hc : c = exit.realmId
  · subst hc
    -- The realm itself: the exit is passed on if it was spawned and is still in the tree.
    have hself : exit.realmId ∈ l ↔ s.registry.Registered exit.realmId := by
      rw [hmem]
      exact ⟨And.left, fun hreg => ⟨hreg, .refl⟩⟩
    have hspawned : exit.realmId ∈ g.spawned ↔ (g.spawned.lookup exit.realmId).isSome :=
      lookup_isSome.symm
    simp only [hself, hspawned]
    cases ho : g.spawned.lookup exit.realmId with
    | none => simp
    | some o =>
      by_cases hreg : s.registry.Registered exit.realmId <;> simp [hreg, isNoticeOf]
  · have hforward : (if s.registry.Registered exit.realmId then
        (g.spawned.lookup exit.realmId).map fun o =>
          (.send o.requesterNodeId (.realmExit exit) : Sent V)
        else none).toList.countP (isNoticeOf c) = 0 := by
      rw [countP_eq_zero]
      intro m hm
      simp only [mem_toList] at hm
      split_ifs at hm
      · obtain ⟨o, -, rfl⟩ := map_eq_some_iff.mp hm
        simpa [isNoticeOf] using Ne.symm hc
    rw [hforward]
    simp [hc]

lemma isNoticeOf_of_mem_routed {x : String}
    (hm : m ∈ ready.filterMap fun msg => s.toHost msg.toPort (.portMsg msg)) :
    isNoticeOf x m = false := by
  obtain ⟨msg, -, heq⟩ := mem_filterMap.mp hm
  obtain ⟨n, -, rfl⟩ := map_eq_some_iff.mp heq
  rfl

lemma countP_of_quiet (hout : ∀ x, ∀ m ∈ out, isNoticeOf x m = false) (c : String) :
    out.countP (isNoticeOf c) = 0 := by
  rw [countP_eq_zero]
  intro m hm
  simp [hout c m hm]

/-- There is one notice for each spawned realm that is removed. -/
def NoticesRemoved (s : SeedServer) (g : History V) (t : SeedServer) (out : List (Sent V)) : Prop :=
  ∀ c, out.countP (isNoticeOf c) =
    if c ∈ g.spawned ∧ s.registry.Registered c ∧ ¬ t.registry.Registered c then 1 else 0

lemma noticesRemoved_of_quiet (hout : ∀ x, ∀ m ∈ out, isNoticeOf x m = false)
    (hreg : ∀ c, s.registry.Registered c → t.registry.Registered c) :
    NoticesRemoved s g t out := by
  intro c
  rw [countP_of_quiet hout, if_neg]
  rintro ⟨-, hc, hnot⟩
  exact hnot (hreg c hc)

/-- The exit of a realm is processed; `s'` may differ from `s` outside the tree. -/
lemma Owned.exit_answers (h : Owned (s, g)) (s' : SeedServer)
    (hregistry : s'.registry = s.registry) (hnodes : s'.portNodes = s.portNodes)
    (exit : RealmExitMessage) :
    ∃ t out, s'.handleRealmExit (V := V) exit = some (t, out) ∧ PassesOn s g exit out ∧
      NoticesRemoved s g t out := by
  obtain ⟨l, hl, hmem, heq⟩ := (h.sound.congr hregistry hnodes).handleRealmExit exit
  rw [hregistry] at hl hmem
  have hpasses := h.passesOn hl.nodup hmem
  have hout : s'.exitNotices (V := V) exit l = s.exitNotices exit l := by
    rw [exitNotices, terminated, hregistry, exitNotices, terminated]
  refine ⟨_, _, heq, hout ▸ hpasses, fun c => ?_⟩
  rw [hout, hpasses.countP h hmem c]
  refine if_congr (and_congr_right fun _ => ?_) rfl rfl
  rw [registry_prune, registered_removeAll, hregistry]
  constructor
  · exact fun hcl => ⟨hl.registered c hcl, fun hand => hand.1 hcl⟩
  · rintro ⟨hreg, hnot⟩
    exact by_contra fun hcl => hnot ⟨hcl, hreg⟩

lemma Owned.answers (h : Owned (s, g)) (hok : Orderly (s, g) a) :
    ∃ t out, s.react a = some (t, out) ∧ Answers s g t out a ∧ NoticesRemoved s g t out := by
  obtain ⟨hregisters, hlost⟩ := hok
  cases a with
  | expire => exact absurd hlost (by simp [Input.lost])
  | handle now sender msg =>
    cases msg with
    | peerDown => exact absurd hlost (by simp [Input.lost])
    | hello _ load =>
      have hout : ∀ x, ∀ m ∈ [send sender (.welcome s.nodeId
          ((s.peers.set sender load).entries.map fun p => ⟨p.1, p.2⟩)),
          (.broadcastExcept sender (.peerUp ⟨sender, load⟩) : Sent V)],
          isNoticeOf x m = false := by
        intro x m hm
        simp only [mem_cons, not_mem_nil, or_false] at hm
        rcases hm with rfl | rfl <;> rfl
      exact ⟨_, _, rfl, hout, noticesRemoved_of_quiet hout fun _ hc => hc⟩
    | welcome | peerUp | terminate | heartbeat =>
      exact ⟨_, _, rfl, by simp [Answers], noticesRemoved_of_quiet (by simp) fun _ hc => hc⟩
    | spawn spawnReqId parentPortId config =>
      cases htarget : s.selectTarget sender with
      | none =>
        refine ⟨s, [.send sender
          (.spawnAck spawnReqId "" false (some "no available worker node"))], ?_, ?_, ?_⟩
        · simp [react, handle, htarget]
        · simp [Answers, isNoticeOf]
        · exact noticesRemoved_of_quiet (by simp [isNoticeOf]) fun _ hc => hc
      | some target =>
        refine ⟨s.admitSpawn sender spawnReqId parentPortId target,
          [.send target (.spawn spawnReqId parentPortId config)], ?_, ?_, ?_⟩
        · simp [react, handle, htarget]
        · simp [Answers, isNoticeOf]
        · exact noticesRemoved_of_quiet (by simp [isNoticeOf])
            fun _ hc => registered_register.mpr (.inr hc)
    | spawnAck spawnReqId childPortId ok error =>
      cases hinfo : s.pendingSpawns.lookup spawnReqId with
      | none =>
        refine ⟨{ s with pendingSpawns := s.pendingSpawns.erase spawnReqId }, [], ?_, ?_, ?_⟩
        · simp [react, handle, hinfo]
        · simp [Answers]
        · exact noticesRemoved_of_quiet (by simp) fun _ hc => hc
      | some info =>
        refine ⟨s.settleSpawn sender spawnReqId childPortId ok info,
          [.send info.requesterNodeId (.spawnAck spawnReqId childPortId ok error)], ?_, ?_, ?_⟩
        · simp [react, handle, hinfo]
        · simp [Answers, isNoticeOf]
        · refine noticesRemoved_of_quiet (by simp [isNoticeOf]) fun c hc => ?_
          cases ok with
          | false => exact hc
          | true => exact registered_register.mpr (.inr hc)
    | realmExit exit =>
      simp only [react, handle, Answers]
      by_cases hheld : s.routedPortSequence exit.realmId < exit.lastPortSeq
      · simp only [if_pos hheld]
        refine ⟨_, [], rfl, ⟨rfl, ?_⟩, noticesRemoved_of_quiet (by simp) fun _ hc => hc⟩
        rw [lookup_set, if_pos rfl]
      · simp only [if_neg hheld]
        exact h.exit_answers s rfl rfl exit
    | portMsg msg =>
      simp only [react, handle, Answers]
      -- The frames come first; an exit that was held for them comes after.
      have hrouted : ∀ x, ∀ m ∈ (s.takeOrderedPortMessages msg).2.filterMap
          fun m => (s.takeOrderedPortMessages msg).1.toHost m.toPort (.portMsg m),
          isNoticeOf x (m : Sent V) = false := fun x m hm => isNoticeOf_of_mem_routed hm
      have hpending : (s.takeOrderedPortMessages msg).1.pendingRealmExits = s.pendingRealmExits :=
        rfl
      rw [hpending, dueExit]
      cases hexit : s.pendingRealmExits.lookup msg.fromPort with
      | none =>
        exact ⟨_, _, rfl, ⟨_, [], (append_nil _).symm, hrouted, rfl⟩,
          noticesRemoved_of_quiet hrouted fun _ hc => hc⟩
      | some exit =>
        by_cases hdue : exit.lastPortSeq ≤
            (s.takeOrderedPortMessages msg).1.routedPortSequence msg.fromPort
        · obtain ⟨t, out, hexits, hpasses, hnotices⟩ := h.exit_answers
            { (s.takeOrderedPortMessages msg).1 with
              pendingRealmExits := s.pendingRealmExits.erase msg.fromPort } rfl rfl exit
          simp only [if_pos hdue, hexits, map_some]
          refine ⟨_, _, rfl, ⟨_, out, rfl, hrouted, ?_⟩, fun c => ?_⟩
          · rw [filter_some, if_pos (by simpa using hdue)]
            exact hpasses
          · rw [countP_append, countP_of_quiet hrouted, Nat.zero_add]
            exact hnotices c
        · simp only [if_neg hdue]
          refine ⟨_, _, rfl, ⟨_, [], (append_nil _).symm, hrouted, ?_⟩,
            noticesRemoved_of_quiet hrouted fun _ hc => hc⟩
          rw [filter_some, if_neg (by simpa using hdue)]

/-- There is one notice for each spawned realm that has left the tree, and none for the others. -/
structure Told (x : SeedServer × History V) : Prop where
  owned : Owned x
  notices : ∀ c, x.2.notices c = if c ∈ x.2.spawned ∧ ¬ x.1.registry.Registered c then 1 else 0

lemma Told.step (hx : Told x) (hok : Orderly x a) (hstep : stepNoting x a = some y) : Told y := by
  obtain ⟨s, g⟩ := x
  obtain ⟨t, g'⟩ := y
  have htree := TreeStep.of_step hx.owned.sound hok.1 hstep
  refine ⟨htree.owned hx.owned, fun c => ?_⟩
  obtain ⟨hnext, hnote⟩ := watch_eq_some.mp hstep
  obtain ⟨t', out, hreact, -, hremoved⟩ := hx.owned.answers hok
  obtain rfl : t' = t := by
    rw [SeedServer.step, hreact] at hnext
    exact some.inj hnext
  have hlog : g'.log = g.log ++ out := by
    rw [show g' = note g s a t' from hnote, note, sends, hreact]
    rfl
  have hcount : g'.notices c = g.notices c + out.countP (isNoticeOf c) := by
    rw [History.notices, hlog, countP_append, History.notices]
  have hg := hx.notices c
  rw [hcount, hg, hremoved c]
  -- A realm leaves the tree once, and one that is new is in the tree.
  cases htree with
  | keeps hregistry hnodes hspawned => simp [hregistry, hspawned]
  | root p n hport hnode hfree hnew hregistry hnodes hspawned =>
    rw [hregistry, hspawned]
    by_cases hc : c = p
    · simp [hc, hnew]
    · simp [registered_register, hc]
  | child p o hport hnode hne hfree hparent hnew hregistry hnodes hspawned =>
    rw [hregistry, hspawned]
    by_cases hc : c = p
    · simp [hc, hnew, registered_register]
    · simp [registered_register, hc, AList.mem_set]
  | prune s' l heq hl hregistry hnodes hspawned =>
    have hreg : t'.registry.Registered c → s.registry.Registered c := by
      rw [heq, registry_prune, registered_removeAll, hregistry]
      exact And.right
    rw [hspawned]
    by_cases hs : s.registry.Registered c
    · simp [hs]
    · have ht : ¬ t'.registry.Registered c := fun ht => hs (hreg ht)
      simp [hs, ht]

/-- As long as only ports without edges are registered and no node is lost, the exit of a spawned
realm is passed on to the node that has asked for it, and every descendant in the tree is ordered to
terminate, each once; a realm in the tree has had no such message, and one that has left it one. -/
theorem exits_passed_on {nodeId : String}
    (h : Run stepNoting Orderly (start nodeId, (.empty : History V)) (s, g)) :
    (∀ c, g.notices c = if c ∈ g.spawned ∧ ¬ s.registry.Registered c then 1 else 0) ∧
      ∀ a, Orderly (s, g) a → ∃ t out, s.react a = some (t, out) ∧ Answers s g t out a := by
  have htold : Told (s, g) := by
    refine h.invariant (fun x a y hx hok hstep => hx.step hok hstep) ⟨owned_start nodeId, ?_⟩
    simp [History.notices, History.empty]
  refine ⟨htold.notices, fun a ha => ?_⟩
  obtain ⟨t, out, hreact, hanswers, -⟩ := htold.owned.answers ha
  exact ⟨t, out, hreact, hanswers⟩

def anySpawn (spawnReqId parentPortId : String) : ClusterMessage Unit :=
  .spawn spawnReqId parentPortId ⟨"entry", "root", [], none⟩

/-- Two nodes join, and a realm is spawned on `b` from a port of `a`. -/
def firstSpawn : List (Input Unit) :=
  [.handle 0 "a" (.hello "a" ⟨0, 0⟩), .handle 0 "b" (.hello "b" ⟨0, 0⟩),
    .handle 1 "a" (anySpawn "a-0" "a/p"), .handle 2 "b" (.spawnAck "a-0" "b/0" true none)]

/-- The one frame that this realm has sent arrives. -/
def lastFrame : Input Unit := .handle 4 "b" (.portMsg ⟨"b/0", "a/p", [], 1, none⟩)

/-- The frame goes to the node of the parent, and then the exit. -/
def frameAndExit : List (Sent Unit) :=
  [.send "a" (.portMsg ⟨"b/0", "a/p", [], 1, none⟩), .send "a" (.realmExit ⟨"b/0", 1, none⟩)]

/-- An exit that is held for a frame is passed on after the frame. -/
theorem held_exit_passed_on : ∃ (s : SeedServer) (g : History Unit),
    Run stepNoting Orderly (start "seed", .empty) (s, g) ∧ g.notices "b/0" = 0 ∧
      Orderly (s, g) lastFrame ∧ ∃ t, s.react lastFrame = some (t, frameAndExit) ∧
        Answers s g t frameAndExit lastFrame := by
  have hp : (exec (restrict stepNoting Orderly) (start "seed", (.empty : History Unit))
      (firstSpawn ++ [.handle 3 "b" (.realmExit ⟨"b/0", 1, none⟩)])).bind (fun x =>
        (x.1.react lastFrame).map fun r => (x.2.notices "b/0", r.2)) =
      some (0, frameAndExit) := by decide +kernel
  obtain ⟨⟨s, g⟩, -, hrun, hp⟩ := Run.exists_of_exec hp
  obtain ⟨⟨t, out⟩, hreact, hp⟩ := map_eq_some_iff.mp hp
  simp only [Prod.mk.injEq] at hp
  obtain ⟨hnotices, rfl⟩ := hp
  have hok : Orderly (s, g) lastFrame := ⟨trivial, rfl⟩
  obtain ⟨t', out, hreact', hanswers⟩ := (exits_passed_on hrun).2 _ hok
  rw [hreact] at hreact'
  cases hreact'
  exact ⟨s, g, hrun, hnotices, hok, t, hreact, hanswers⟩

/-- A realm that has spawned is a root: its exit is not passed on to `a`, which has asked for it. -/
theorem exit_not_forwarded :
    ((exec stepNoting (start "seed", (.empty : History Unit)) (firstSpawn ++
      [.handle 3 "b" (anySpawn "b-1" "b/0"), .handle 4 "a" (.spawnAck "b-1" "a/1" true none)])).bind
        fun x => (x.1.react (V := Unit) (.handle 5 "b" (.realmExit ⟨"b/0", 0, none⟩))).map fun r =>
          (x.2.spawned.lookup "b/0", r.2)) =
      some (some ⟨"a/p", "a", "b"⟩, [.send "a" (.terminate "a/1")]) := by
  decide +kernel

end SeedServer

end Fino.Cluster
