import Fino.Cluster.Registry
import Fino.Lib.Reorder

/-!
# The seed

`SeedServer` of `js/internal/cluster/seed.ts`. A handler returns the next state and what it gives to
the transport, in order, or nothing where a removal overflows the stack. In a `Sound` seed the
registry is well formed and the routes are its own; then an exit and the loss of a node each remove
a part of the tree (`Sound.handleRealmExit`, `Sound.handleNodeDown`).
-/

namespace Fino.Cluster

open Lib List Option RealmRegistry Prod Lib.Forest
open Workflow (Time)

variable {V : Type}

/-! ## The model -/

/-- An entry of `#pendingSpawns`. -/
structure PendingSpawn where
  requesterNodeId : String
  parentPortId : String
  targetNodeId : String
deriving DecidableEq

abbrev PortSequenceState := Reorder.Buffer PortMessage

/-- `SeedServer`; `nodeId` is that of its transport. -/
structure SeedServer where
  nodeId : String
  registry : RealmRegistry
  peers : OrderedMap String NodeLoad
  lastSeen : OrderedMap String Time
  pendingSpawns : OrderedMap String PendingSpawn
  portNodes : OrderedMap String String
  portSequences : OrderedMap String PortSequenceState
  pendingRealmExits : OrderedMap String RealmExitMessage

/-- What the seed sends: a message to a node, or to all but one. -/
inductive Sent (V : Type)
  | send (nodeId : String) (msg : ClusterMessage V)
  | broadcastExcept (nodeId : String) (msg : ClusterMessage V)
deriving DecidableEq

/-- The message tells of the end of a spawn or orders to terminate a realm. -/
def Sent.Notice : Sent V → Prop
  | .send _ (.spawnAck ..) | .send _ (.terminate _) => True
  | _ => False

namespace SeedServer

variable (nodeId : String)

def start : SeedServer :=
  ⟨nodeId, .empty, ∅, ∅, ∅, ∅, ∅, ∅⟩

/-- `#selectTarget`: the first peer of least load that is not excluded. -/
def selectTarget (s : SeedServer) (excludeNodeId : String) : Option String :=
  (s.peers.entries.foldl
    (fun (best : Option (String × ℚ)) peer =>
      if peer.1 = excludeNodeId then best
      else match best with
        | none => some (peer.1, peer.2.cpu)
        | some (_, bestLoad) => if peer.2.cpu < bestLoad then some (peer.1, peer.2.cpu) else best)
    none).map fst

def takeOrderedPortMessages (s : SeedServer) (msg : PortMessage) : SeedServer × List PortMessage :=
  let (state, ready) := ((s.portSequences.lookup msg.fromPort).getD .empty).take msg.seq msg
  ({ s with portSequences := s.portSequences.set msg.fromPort state }, ready)

def routedPortSequence (s : SeedServer) (fromPort : String) : ℕ :=
  ((s.portSequences.lookup fromPort).map (·.next)).getD 1 - 1

/-- The seed forgets a port that was removed from the registry. -/
def dropPort (s : SeedServer) (portId : String) : SeedServer :=
  { s with
    portNodes := s.portNodes.erase portId
    portSequences := s.portSequences.erase portId
    pendingRealmExits := s.pendingRealmExits.erase portId }

/-- A message for the node that hosts a port, if there is one. -/
def toHost (s : SeedServer) (portId : String) (msg : ClusterMessage V) : Option (Sent V) :=
  (truthy (s.portNodes.lookup portId)).map (.send · msg)

def handleRealmExit (s : SeedServer) (msg : RealmExitMessage) :
    Option (SeedServer × List (Sent V)) :=
  (s.registry.exit msg.realmId).map fun (registry, removed) =>
    let forward : Option (Sent V) :=
      (s.registry.parent msg.realmId).bind (s.toHost · (.realmExit msg))
    removed.foldl
      (fun (st : SeedServer × List (Sent V)) p =>
        (st.1.dropPort p,
          st.2 ++ if p ≠ msg.realmId then (st.1.toHost p (.terminate p)).toList else []))
      ({ s with registry := registry }, forward.toList)

def targetLost : String :=
  s!"target node {nodeId} went down before spawn completed"

/-- A turn of the first loop of `#handleNodeDown`: a spawn that the node asked for is dropped, and
one to be made there refused. -/
def dropSpawn (st : SeedServer × List (Sent V))
    (entry : Sigma fun _ : String => PendingSpawn) : SeedServer × List (Sent V) :=
  let dropped := { st.1 with pendingSpawns := st.1.pendingSpawns.erase entry.1 }
  if entry.2.requesterNodeId = nodeId then (dropped, st.2)
  else if entry.2.targetNodeId = nodeId then
    (dropped, st.2 ++ [.send entry.2.requesterNodeId
      (.spawnAck entry.1 "" false (some (targetLost nodeId)))])
  else st

/-- The first loop of `#handleNodeDown`. -/
def dropSpawns (s : SeedServer) (nodeId : String) : SeedServer × List (Sent V) :=
  s.pendingSpawns.entries.foldl (dropSpawn nodeId) (s, [])

def handleNodeDown (s : SeedServer) (nodeId : String) : Option (SeedServer × List (Sent V)) :=
  let (s, out) := s.dropSpawns nodeId
  (s.registry.nodeDown nodeId).map fun (registry, affected) =>
    affected.foldl
      (fun (st : SeedServer × List (Sent V)) port =>
        let s := st.1.dropPort port.1
        let parentHost : Option String := (truthy port.2).bind fun parent =>
          (truthy (s.portNodes.lookup parent)).filter (· ≠ nodeId)
        (s, st.2 ++ (parentHost.map (.send · (.terminate port.1))).toList))
      ({ s with registry := registry }, out)

def withoutPeer (s : SeedServer) (nodeId : String) : SeedServer :=
  { s with peers := s.peers.erase nodeId, lastSeen := s.lastSeen.erase nodeId }

/-- What `PEER_DOWN` and the sweep for silent peers do to a node. -/
def loseNode (s : SeedServer) (nodeId : String) : Option (SeedServer × List (Sent V)) :=
  ((s.withoutPeer nodeId).handleNodeDown nodeId).map fun (s, out) =>
    (s, .broadcastExcept nodeId (.peerDown nodeId) :: out)

/-- The sweep finds the node silent for too long. -/
def Overdue (s : SeedServer) (now timeout : Time) (nodeId : String) : Prop :=
  ∃ ts ∈ s.lastSeen.lookup nodeId, timeout < now - ts

instance (s : SeedServer) (now timeout : Time) (nodeId : String) :
    Decidable (s.Overdue now timeout nodeId) :=
  inferInstanceAs (Decidable (∃ ts ∈ s.lastSeen.lookup nodeId, timeout < now - ts))

def checkHeartbeats (s : SeedServer) (now timeout : Time) : Option (SeedServer × List (Sent V)) :=
  s.lastSeen.entries.foldlM
    (fun (st : SeedServer × List (Sent V)) entry =>
      if timeout < now - entry.2 then
        (st.1.loseNode entry.1).map fun (s, out) => (s, st.2 ++ out)
      else some st)
    (s, [])

/-- A spawn is forwarded: it is pending, and its parent port is registered. -/
def admitSpawn (s : SeedServer) (sender spawnReqId parentPortId target : String) : SeedServer :=
  { s with
    pendingSpawns := s.pendingSpawns.set spawnReqId ⟨sender, parentPortId, target⟩
    portNodes := s.portNodes.set parentPortId sender
    registry := s.registry.register parentPortId none sender }

/-- A pending spawn is acknowledged: its child is registered, if there is one. -/
def settleSpawn (s : SeedServer) (sender spawnReqId childPortId : String) (ok : Bool)
    (spawnInfo : PendingSpawn) : SeedServer :=
  let s := { s with pendingSpawns := s.pendingSpawns.erase spawnReqId }
  if ok then
    { s with
      portNodes := s.portNodes.set childPortId sender
      registry := s.registry.register childPortId (some spawnInfo.parentPortId) sender }
  else s

def handle (s : SeedServer) (now : Time) (sender : String) :
    ClusterMessage V → Option (SeedServer × List (Sent V))
  | .hello _ load =>
    let peers := s.peers.set sender load
    some ({ s with peers := peers, lastSeen := s.lastSeen.set sender now },
      [.send sender (.welcome s.nodeId (peers.entries.map fun p => ⟨p.1, p.2⟩)),
        .broadcastExcept sender (.peerUp ⟨sender, load⟩)])
  | .peerDown _ => s.loseNode sender
  | .heartbeat _ => some ({ s with lastSeen := s.lastSeen.set sender now }, [])
  | .spawn spawnReqId parentPortId config =>
    match s.selectTarget sender with
    | none =>
      some (s, [.send sender (.spawnAck spawnReqId "" false (some "no available worker node"))])
    | some target =>
      some (s.admitSpawn sender spawnReqId parentPortId target,
        [.send target (.spawn spawnReqId parentPortId config)])
  | .spawnAck spawnReqId childPortId ok error =>
    match s.pendingSpawns.lookup spawnReqId with
    | none => some ({ s with pendingSpawns := s.pendingSpawns.erase spawnReqId }, [])
    | some spawnInfo =>
      some (s.settleSpawn sender spawnReqId childPortId ok spawnInfo,
        [.send spawnInfo.requesterNodeId (.spawnAck spawnReqId childPortId ok error)])
  | .realmExit msg =>
    if s.routedPortSequence msg.realmId < msg.lastPortSeq then
      some ({ s with pendingRealmExits := s.pendingRealmExits.set msg.realmId msg }, [])
    else s.handleRealmExit msg
  | .portMsg msg =>
    let (s, ready) := s.takeOrderedPortMessages msg
    let routed : List (Sent V) := ready.filterMap fun msg => s.toHost msg.toPort (.portMsg msg)
    match s.pendingRealmExits.lookup msg.fromPort with
    | none => some (s, routed)
    | some pendingExit =>
      if pendingExit.lastPortSeq ≤ s.routedPortSequence msg.fromPort then
        (handleRealmExit { s with pendingRealmExits := s.pendingRealmExits.erase msg.fromPort }
          pendingExit).map fun (s, out) => (s, routed ++ out)
      else some (s, routed)
  | .welcome .. | .peerUp .. | .terminate .. => some (s, [])

/-- What happens to the seed: a message arrives, or a node is overdue. -/
inductive Input (V : Type)
  | handle (now : Time) (sender : String) (msg : ClusterMessage V)
  | expire (now timeout : Time) (nodeId : String)

def react (s : SeedServer) : Input V → Option (SeedServer × List (Sent V))
  | .handle now sender msg => s.handle now sender msg
  | .expire now timeout nodeId =>
    if s.Overdue now timeout nodeId then s.loseNode nodeId else none

def step (s : SeedServer) (a : Input V) : Option SeedServer := (s.react a).map fst

def sends (s : SeedServer) (a : Input V) : List (Sent V) := ((s.react a).map snd).getD []

/-! ## Ports and spawns that are forgotten -/

variable {s : SeedServer} {l : List String} {x n k : String}

def forget (s : SeedServer) (l : List String) : SeedServer := l.foldl dropPort s

section

variable (s : SeedServer) (l : List String)

lemma forget_eq : s.forget l = { s with
      portNodes := l.foldl (fun m k => m.erase k) s.portNodes
      portSequences := l.foldl (fun m k => m.erase k) s.portSequences
      pendingRealmExits := l.foldl (fun m k => m.erase k) s.pendingRealmExits } := by
  induction l generalizing s with
  | nil => rfl
  | cons x l ih => exact ih (s.dropPort x)

lemma lookup_foldl_erase {ν : Type} (m : OrderedMap String ν) (l : List String) (x : String) :
    (l.foldl (fun m k => m.erase k) m).lookup x = if x ∈ l then none else m.lookup x := by
  induction l generalizing m with
  | nil => rfl
  | cons y l ih =>
    rw [foldl_cons, ih, AList.lookup_erase_eq_ite]
    by_cases hx : x = y <;> simp [hx]

variable (x : String)

lemma lookup_portNodes_forget :
    (s.forget l).portNodes.lookup x = if x ∈ l then none else s.portNodes.lookup x := by
  rw [forget_eq]
  exact lookup_foldl_erase _ l x

lemma lookup_portSequences_forget :
    (s.forget l).portSequences.lookup x = if x ∈ l then none else s.portSequences.lookup x := by
  rw [forget_eq]
  exact lookup_foldl_erase _ l x

lemma lookup_pendingRealmExits_forget :
    (s.forget l).pendingRealmExits.lookup x =
      if x ∈ l then none else s.pendingRealmExits.lookup x := by
  rw [forget_eq]
  exact lookup_foldl_erase _ l x

/-- The loops over removed ports: the seed forgets them, and what each turn sends is put together.
-/
lemma foldl_dropPort (out : SeedServer → String → List (Sent V)) (sent : String → List (Sent V))
    (l : List String) (s : SeedServer) (acc : List (Sent V))
    (h : ∀ l₁ p l₂, l = l₁ ++ p :: l₂ → out (s.forget l₁) p = sent p) :
    l.foldl (fun st p => (st.1.dropPort p, st.2 ++ out st.1 p)) (s, acc) =
      (s.forget l, acc ++ l.flatMap sent) := by
  induction l generalizing s acc with
  | nil => simp [forget]
  | cons p l ih =>
    have hp : out s p = sent p := h [] p l rfl
    rw [foldl_cons, ih]
    · rw [hp, append_assoc, flatMap_cons]
      rfl
    · intro l₁ q l₂ hl
      exact h (p :: l₁) q l₂ (by rw [hl]; rfl)

/-- A spawn that the loss of the node leaves pending. -/
def PendingSpawn.Survives (p : PendingSpawn) (n : String) : Prop :=
  p.requesterNodeId ≠ n ∧ p.targetNodeId ≠ n

instance (p : PendingSpawn) (n : String) : Decidable (PendingSpawn.Survives p n) :=
  inferInstanceAs (Decidable (_ ∧ _))

/-- What is sent for a pending spawn when the node is lost. -/
def refusal (n : String) (e : Sigma fun _ : String => PendingSpawn) : Option (Sent V) :=
  if e.2.requesterNodeId ≠ n ∧ e.2.targetNodeId = n then
    some (.send e.2.requesterNodeId (.spawnAck e.1 "" false (some (targetLost n))))
  else none

lemma foldl_dropSpawn (n : String) (es : List (Sigma fun _ : String => PendingSpawn))
    (st : SeedServer × List (Sent V)) : es.foldl (dropSpawn n) st = ({ st.1 with
          pendingSpawns := ((es.filter fun e => ¬ PendingSpawn.Survives e.2 n).map Sigma.fst).foldl
            (fun m k => m.erase k) st.1.pendingSpawns },
        st.2 ++ es.filterMap (refusal n)) := by
  induction es generalizing st with
  | nil => simp
  | cons e es ih =>
    rw [foldl_cons, ih]
    by_cases hreq : e.2.requesterNodeId = n
    · have hdrop : ¬ PendingSpawn.Survives e.2 n := fun h => h.1 hreq
      simp [dropSpawn, refusal, hreq, hdrop]
    · by_cases htarget : e.2.targetNodeId = n
      · have hdrop : ¬ PendingSpawn.Survives e.2 n := fun h => h.2 htarget
        simp [dropSpawn, refusal, hreq, htarget, hdrop]
      · have hkeep : PendingSpawn.Survives e.2 n := ⟨hreq, htarget⟩
        simp [dropSpawn, refusal, hreq, htarget, hkeep]

/-- The pending spawns without the node survive, and those to be made there are refused. -/
lemma dropSpawns_spec (n : String) : ∃ pendingSpawns,
    (s.dropSpawns (V := V) n).1 = { s with pendingSpawns := pendingSpawns } ∧
      (∀ k p, pendingSpawns.lookup k = some p ↔
        s.pendingSpawns.lookup k = some p ∧ PendingSpawn.Survives p n) ∧
      ∀ m ∈ (s.dropSpawns (V := V) n).2, ∃ k p, s.pendingSpawns.lookup k = some p ∧
        p.requesterNodeId ≠ n ∧ p.targetNodeId = n ∧
        m = .send p.requesterNodeId (.spawnAck k "" false (some (targetLost n))) := by
  have hmem : ∀ e ∈ s.pendingSpawns.entries, s.pendingSpawns.lookup e.1 = some e.2 :=
    fun e he => AList.mem_lookup_iff.mpr he
  refine ⟨_, congrArg fst (foldl_dropSpawn n s.pendingSpawns.entries (s, [])), ?_, ?_⟩
  · intro k p
    rw [lookup_foldl_erase]
    -- A key is in the list of the dropped spawns if its spawn does not survive.
    have hdropped : k ∈ (s.pendingSpawns.entries.filter
        fun e => ¬ PendingSpawn.Survives e.2 n).map Sigma.fst ↔
          ∃ q, s.pendingSpawns.lookup k = some q ∧ ¬ PendingSpawn.Survives q n := by
      simp only [List.mem_map, List.mem_filter, decide_eq_true_eq]
      constructor
      · rintro ⟨e, ⟨he, hgone⟩, rfl⟩
        exact ⟨e.2, hmem e he, hgone⟩
      · rintro ⟨q, hq, hgone⟩
        exact ⟨⟨k, q⟩, ⟨AList.mem_lookup_iff.mp hq, hgone⟩, rfl⟩
    split_ifs with hk
    · obtain ⟨q, hq, hgone⟩ := hdropped.mp hk
      rw [hq]
      simp only [Option.some.injEq, false_iff, not_and]
      rintro rfl
      exact hgone
    · refine ⟨fun hp => ⟨hp, ?_⟩, And.left⟩
      by_contra hgone
      exact hk (hdropped.mpr ⟨p, hp, hgone⟩)
  · intro m hm
    rw [dropSpawns, foldl_dropSpawn, nil_append, mem_filterMap] at hm
    obtain ⟨e, he, hrefusal⟩ := hm
    unfold refusal at hrefusal
    split_ifs at hrefusal with hcond
    exact ⟨e.1, e.2, hmem e he, hcond.1, hcond.2, (Option.some.inj hrefusal).symm⟩

end

/-! ## Soundness -/

/-- The registry is well formed, the routes are its own, and no identifier is empty. -/
structure Sound (s : SeedServer) : Prop where
  registry : s.registry.WellFormed
  routes : ∀ p, s.portNodes.lookup p = s.registry.getNodeId p
  ports : ∀ p, s.registry.Registered p → p ≠ ""
  hosts : ∀ p n, s.registry.getNodeId p = some n → n ≠ ""

lemma sound_start : (start nodeId).Sound where
  registry := wellFormed_empty
  routes := fun p => rfl
  ports := fun p hp => absurd hp not_mem_nil
  hosts := fun p n hn => absurd hn (by simp [start, empty, getNodeId])

variable {t : SeedServer}

lemma Sound.congr (h : s.Sound) (hregistry : t.registry = s.registry)
    (hnodes : t.portNodes = s.portNodes) : t.Sound := by
  obtain ⟨hwf, hroutes, hports, hhosts⟩ := h
  constructor <;> rw [hregistry]
  · exact hwf
  · rw [hnodes]
    exact hroutes
  · exact hports
  · exact hhosts

/-- A message for the host of a port goes to the node of the registry. -/
lemma Sound.toHost_eq (h : s.Sound) (p : String) (msg : ClusterMessage V) :
    s.toHost p msg = (s.registry.getNodeId p).map (.send · msg) := by
  rw [toHost, h.routes]
  cases hn : s.registry.getNodeId p with
  | none => rfl
  | some n =>
    have htruthy : truthy (some n) = some n := truthy_eq_some.mpr ⟨rfl, h.hosts p n hn⟩
    rw [htruthy]

/-- The seed after ports were removed from the registry. -/
def prune (s : SeedServer) (l : List String) : SeedServer :=
  forget { s with registry := s.registry.removeAll l } l

lemma registry_prune (s : SeedServer) (l : List String) :
    (s.prune l).registry = s.registry.removeAll l := by
  rw [prune, forget_eq]

lemma Sound.prune (h : s.Sound) (hl : s.registry.Cuts s.registry.parent l) : (s.prune l).Sound where
  registry := by
    rw [registry_prune]
    exact h.registry.removeAll hl
  routes := by
    intro p
    rw [registry_prune, getNodeId_removeAll, SeedServer.prune, lookup_portNodes_forget]
    split_ifs
    · rfl
    · exact h.routes p
  ports := by
    intro p hp
    rw [registry_prune, registered_removeAll] at hp
    exact h.ports p hp.2
  hosts := by
    intro p n hn
    rw [registry_prune, getNodeId_removeAll] at hn
    split_ifs at hn
    exact h.hosts p n hn

lemma Sound.register {portId nodeId : String} {parentPortId : Option String} (h : s.Sound)
    (hfree : s.registry.Free portId nodeId)
    (hparent : ∀ q, truthy parentPortId = some q → q ≠ portId ∧ s.registry.Registered q)
    (hport : portId ≠ "") (hnode : nodeId ≠ "")
    (hnodes : t.portNodes = s.portNodes.set portId nodeId)
    (hregistry : t.registry = s.registry.register portId parentPortId nodeId) : t.Sound where
  registry := by
    rw [hregistry]
    exact h.registry.register hfree hparent
  routes := by
    intro p
    rw [hregistry, hnodes, AList.lookup_set, getNodeId_register, h.routes]
  ports := by
    intro p hp
    rw [hregistry, registered_iff, owner_register] at hp
    split_ifs at hp with heq
    · rw [heq]
      exact hport
    · exact h.ports p (registered_iff.mpr hp)
  hosts := by
    intro p n hn
    rw [hregistry, getNodeId_register] at hn
    split_ifs at hn with heq
    · exact Option.some.inj hn ▸ hnode
    · exact h.hosts p n hn

/-- The ports that are removed with a realm, with the nodes that host them. -/
def terminated (s : SeedServer) (realmId : String) (removed : List String) :
    List (String × String) :=
  removed.filterMap fun p =>
    if p = realmId then none else (s.registry.getNodeId p).map fun n => (p, n)

/-- What is sent when a realm exits and `removed` is taken out of the tree. -/
def exitNotices (s : SeedServer) (msg : RealmExitMessage) (removed : List String) : List (Sent V) :=
  ((s.registry.parent msg.realmId).bind fun q =>
      (s.registry.getNodeId q).map (.send · (.realmExit msg))).toList ++
    (s.terminated msg.realmId removed).map fun t => .send t.2 (.terminate t.1)

lemma Sound.handleRealmExit (h : s.Sound) (msg : RealmExitMessage) :
    ∃ l, s.registry.Cuts s.registry.parent l ∧
      (∀ x, x ∈ l ↔ s.registry.Registered x ∧ Below s.registry.parent x msg.realmId) ∧
      s.handleRealmExit (V := V) msg = some (s.prune l, s.exitNotices msg l) := by
  obtain ⟨l, hexit, hprunes, hmem⟩ := h.registry.exit_spec msg.realmId
  refine ⟨l, hprunes, hmem, ?_⟩
  rw [SeedServer.handleRealmExit, hexit, map_some]
  dsimp only
  rw [foldl_dropPort (fun s p => if p ≠ msg.realmId then (s.toHost p (.terminate p)).toList else [])
    (fun p => if p ≠ msg.realmId then (s.toHost p (.terminate p)).toList else [])]
  · have hterminated : (l.flatMap fun p =>
          if p ≠ msg.realmId then (s.toHost (V := V) p (.terminate p)).toList else []) =
        (s.terminated msg.realmId l).map fun t => .send t.2 (.terminate t.1) := by
      rw [terminated, map_filterMap, filterMap_eq_flatMap_toList]
      congr 1
      funext p
      by_cases hp : p = msg.realmId
      · simp [hp]
      · simp [hp, h.toHost_eq, Function.comp_def]
    rw [hterminated, exitNotices]
    simp only [h.toHost_eq]
    rfl
  · -- A port is still routed when its turn comes, since it occurs once in the list.
    intro l₁ p l₂ hl
    have hp : p ∉ l₁ := by
      have hnodup := hprunes.nodup
      rw [hl, nodup_append] at hnodup
      exact fun hmem => hnodup.2.2 p hmem p (by simp) rfl
    have hroute : (forget { s with registry := s.registry.removeAll l } l₁).portNodes.lookup p =
        s.portNodes.lookup p := by
      rw [lookup_portNodes_forget, if_neg hp]
    simp only [toHost, hroute]

/-- What is sent for a port that is removed with its node or with one above it. -/
def orphanNotice (s : SeedServer) (n p : String) : List (Sent V) :=
  (((s.registry.parent p).bind fun q => (s.registry.getNodeId q).filter (· ≠ n)).map
    (.send · (.terminate p))).toList

/-- `#handleNodeDown` takes the ports of the node and what is below them out of the tree. -/
lemma Sound.handleNodeDown (h : s.Sound) (n : String) :
    ∃ l, s.registry.Cuts s.registry.parent l ∧ (∀ x, x ∈ l ↔ s.registry.Registered x ∧
        ∃ r, s.registry.getNodeId r = some n ∧ Below s.registry.parent x r) ∧
      s.handleNodeDown (V := V) n = some ((s.dropSpawns (V := V) n).1.prune l,
        (s.dropSpawns n).2 ++ l.flatMap (s.orphanNotice n)) := by
  obtain ⟨pending, hpending, -, -⟩ := dropSpawns_spec s n
  obtain ⟨l, hdown, hprunes, hmem⟩ := h.registry.nodeDown_spec n
  refine ⟨l, hprunes, hmem, ?_⟩
  have hregistry : (s.dropSpawns (V := V) n).1.registry = s.registry := by rw [hpending]
  have hnodes : (s.dropSpawns (V := V) n).1.portNodes = s.portNodes := by rw [hpending]
  unfold SeedServer.handleNodeDown
  dsimp only
  rw [hregistry, hdown, map_some]
  rw [foldl_map]
  rw [foldl_dropPort (fun t p =>
      (((truthy ((s.registry.owner p).bind fst)).bind fun q =>
        (truthy ((t.dropPort p).portNodes.lookup q)).filter (· ≠ n)).map
          (.send · (.terminate p))).toList) (s.orphanNotice n)]
  · rw [SeedServer.prune, hregistry]
  · -- The parent of a port comes later in the list, so it is still routed.
    intro l₁ p l₂ hl
    have hparent : truthy ((s.registry.owner p).bind fst) = s.registry.parent p := by
      rw [parent, getParentPortId_eq]
      cases s.registry.owner p <;> rfl
    rw [hparent, orphanNotice]
    cases hq : s.registry.parent p with
    | none => rfl
    | some q =>
      have hdesc : Descends s.registry.parent p q := .single hq
      have hql : q ∉ l₁ ++ [p] := by
        have hord := hprunes.ordered
        rw [hl, pairwise_append] at hord
        intro hmem
        rcases mem_append.mp hmem with hmem | hmem
        · exact hord.2.2 q hmem p (by simp) hdesc
        · rw [mem_singleton] at hmem
          exact h.registry.forest.not_descends_self p (hmem ▸ hdesc)
      have hroute : ∀ t : SeedServer, t.portNodes = s.portNodes →
          truthy (((t.forget l₁).dropPort p).portNodes.lookup q) = s.registry.getNodeId q := by
        intro t ht
        have happend : (t.forget l₁).dropPort p = t.forget (l₁ ++ [p]) := by
          rw [forget, forget, foldl_append]
          rfl
        rw [happend, lookup_portNodes_forget, if_neg hql, ht, h.routes]
        cases hn : s.registry.getNodeId q with
        | none => rfl
        | some m => exact truthy_eq_some.mpr ⟨rfl, h.hosts q m hn⟩
      simp only [bind_some]
      rw [hroute]
      exact hnodes

/-- The loss of a node takes its ports and what is below them out of the tree, and its pending
spawns. -/
lemma Sound.loseNode (h : s.Sound) (n : String) :
    ∃ (pendingSpawns : OrderedMap String PendingSpawn) (l : List String),
      (∀ k p, pendingSpawns.lookup k = some p ↔
        s.pendingSpawns.lookup k = some p ∧ PendingSpawn.Survives p n) ∧
      s.registry.Cuts s.registry.parent l ∧
      (∀ x, x ∈ l ↔ s.registry.Registered x ∧
        ∃ r, s.registry.getNodeId r = some n ∧ Below s.registry.parent x r) ∧
      s.loseNode (V := V) n =
        some (.prune { s.withoutPeer n with pendingSpawns := pendingSpawns } l,
          .broadcastExcept n (.peerDown n) ::
            ((s.dropSpawns n).2 ++ l.flatMap (s.orphanNotice n))) := by
  have hsound : (s.withoutPeer n).Sound := h.congr rfl rfl
  obtain ⟨l, hprunes, hmem, heq⟩ := hsound.handleNodeDown n
  obtain ⟨pending, hpending, hlookup, -⟩ := dropSpawns_spec (s.withoutPeer n) n
  have hsent : ((s.withoutPeer n).dropSpawns (V := V) n).2 = (s.dropSpawns n).2 := by
    rw [dropSpawns, foldl_dropSpawn, dropSpawns, foldl_dropSpawn]
    rfl
  refine ⟨pending, l, hlookup, hprunes, hmem, ?_⟩
  rw [SeedServer.loseNode, heq, map_some, hpending, hsent]
  rfl

/-- The loops over removed ports in any state: the seed forgets them and sends what the turns send.
-/
lemma foldl_turns {β : Type} (key : β → String) (turn : SeedServer → β → List (Sent V))
    (ports : List β) (st : SeedServer × List (Sent V)) :
    ∃ out, ports.foldl (fun st p => (st.1.dropPort (key p), st.2 ++ turn st.1 p)) st =
        (st.1.forget (ports.map key), st.2 ++ out) ∧ ∀ m ∈ out, ∃ t p, m ∈ turn t p := by
  induction ports generalizing st with
  | nil => exact ⟨[], by simp [forget], by simp⟩
  | cons p ports ih =>
    obtain ⟨out, heq, hout⟩ := ih (st.1.dropPort (key p), st.2 ++ turn st.1 p)
    refine ⟨turn st.1 p ++ out, ?_, ?_⟩
    · rw [foldl_cons, heq, append_assoc]
      rfl
    · intro m hm
      rcases mem_append.mp hm with hm | hm
      · exact ⟨st.1, p, hm⟩
      · exact hout m hm

variable {out : List (Sent V)} {exit : RealmExitMessage}

/-- An exit, in any state: ports are forgotten, and the exit is sent to the parent's host before
notices to others. -/
lemma handleRealmExit_frame (h : s.handleRealmExit exit = some (t, out)) :
    (∃ registry removed, s.registry.exit exit.realmId = some (registry, removed) ∧
      t = forget { s with registry := registry } removed) ∧
      ∃ rest, out = ((s.registry.parent exit.realmId).bind
          (s.toHost · (.realmExit exit))).toList ++ rest ∧ ∀ m ∈ rest, m.Notice := by
  obtain ⟨⟨registry, removed⟩, hexit, hfold⟩ := map_eq_some_iff.mp h
  obtain ⟨sent, heq, hsent⟩ := foldl_turns id (fun (s : SeedServer) p =>
      if p ≠ exit.realmId then (s.toHost p (.terminate p)).toList else [])
    removed ({ s with registry := registry },
      ((s.registry.parent exit.realmId).bind (s.toHost · (.realmExit exit))).toList)
  have hresult := heq.symm.trans hfold
  simp only [Prod.mk.injEq] at hresult
  obtain ⟨ht, hout⟩ := hresult
  rw [List.map_id] at ht
  refine ⟨⟨registry, removed, hexit, ht.symm⟩, sent, hout.symm, fun m hmem => ?_⟩
  obtain ⟨t', p, hp⟩ := hsent _ hmem
  split_ifs at hp
  · simp only [mem_toList, toHost, map_eq_some_iff] at hp
    obtain ⟨_, _, rfl⟩ := hp
    trivial
  · cases hp

lemma portMsg_notMem_of_handleRealmExit (h : s.handleRealmExit exit = some (t, out)) (n : String)
    (msg : PortMessage) :
    .send n (.portMsg msg) ∉ out := by
  obtain ⟨-, rest, rfl, hrest⟩ := handleRealmExit_frame h
  intro hmem
  rcases mem_append.mp hmem with hmem | hmem
  · simp only [mem_toList, bind_eq_some_iff, toHost, map_eq_some_iff] at hmem
    obtain ⟨_, _, _, _, hmsg⟩ := hmem
    cases hmsg
  · exact hrest _ hmem

/-- The ports of a node are removed, in any state: they are forgotten, and only notices are sent. -/
lemma handleNodeDown_frame (h : s.handleNodeDown n = some (t, out)) :
    (∃ registry pendingSpawns affected, s.registry.nodeDown n = some (registry, affected) ∧
      t = forget { s with registry := registry, pendingSpawns := pendingSpawns }
        (affected.map fst)) ∧
      ∀ m ∈ out, m.Notice := by
  obtain ⟨pending, hpending, -, hrefused⟩ := dropSpawns_spec s n
  unfold handleNodeDown at h
  obtain ⟨⟨registry, affected⟩, hdown, hfold⟩ := map_eq_some_iff.mp h
  obtain ⟨sent, heq, hsent⟩ := foldl_turns fst
    (fun (s : SeedServer) port => (((truthy port.2).bind fun parent =>
      (truthy ((s.dropPort port.1).portNodes.lookup parent)).filter (· ≠ n)).map
        (Sent.send · (.terminate port.1))).toList) affected
    ({ (s.dropSpawns n).1 with registry := registry }, (s.dropSpawns n).2)
  have hresult := heq.symm.trans hfold
  simp only [Prod.mk.injEq] at hresult
  obtain ⟨ht, hout⟩ := hresult
  replace hdown : (s.dropSpawns n).1.registry.nodeDown n = _ := hdown
  rw [hpending] at hdown
  refine ⟨⟨registry, pending, affected, hdown, ?_⟩, fun m hmem => ?_⟩
  · rw [← ht, hpending]
  · rw [← hout] at hmem
    rcases mem_append.mp hmem with hmem | hmem
    · obtain ⟨_, _, _, _, _, rfl⟩ := hrefused _ hmem
      trivial
    · obtain ⟨t', port, hp⟩ := hsent _ hmem
      simp only [mem_toList, map_eq_some_iff] at hp
      obtain ⟨_, _, rfl⟩ := hp
      trivial

lemma loseNode_frame (h : s.loseNode n = some (t, out)) :
    (∃ registry pendingSpawns affected, s.registry.nodeDown n = some (registry, affected) ∧
      t = forget { s.withoutPeer n with registry := registry, pendingSpawns := pendingSpawns }
        (affected.map fst)) ∧
      ∃ rest, out = .broadcastExcept n (.peerDown n) :: rest ∧ ∀ m ∈ rest, m.Notice := by
  obtain ⟨⟨t', out'⟩, ht, heq⟩ := map_eq_some_iff.mp h
  cases heq
  obtain ⟨hforget, hout⟩ := handleNodeDown_frame ht
  exact ⟨hforget, out', rfl, hout⟩

lemma membership_of_loseNode (h : s.loseNode n = some (t, out)) :
    t.nodeId = s.nodeId ∧ t.peers = s.peers.erase n ∧ t.lastSeen = s.lastSeen.erase n := by
  obtain ⟨⟨registry, pending, removed, -, rfl⟩, -⟩ := loseNode_frame h
  rw [forget_eq]
  exact ⟨rfl, rfl, rfl⟩

/-- `#checkHeartbeats` goes through the overdue nodes; a loss leaves the others overdue. -/
lemma checkHeartbeats_eq (s : SeedServer) (now timeout : Time) :
    s.checkHeartbeats now timeout =
      ((s.lastSeen.entries.filter fun e => timeout < now - e.2).map Sigma.fst).foldlM
        (fun (st : SeedServer × List (Sent V)) n =>
          (st.1.react (.expire now timeout n)).map fun (s, out) => (s, st.2 ++ out))
        (s, []) := by
  have hloop : ∀ (es : List (Sigma fun _ : String => Time)) (st : SeedServer × List (Sent V)),
      es.NodupKeys → (∀ e ∈ es, st.1.lastSeen.lookup e.1 = some e.2) →
      es.foldlM (fun (st : SeedServer × List (Sent V)) entry =>
          if timeout < now - entry.2 then
            (st.1.loseNode entry.1).map fun (s, out) => (s, st.2 ++ out)
          else some st) st =
        ((es.filter fun e => timeout < now - e.2).map Sigma.fst).foldlM
          (fun (st : SeedServer × List (Sent V)) n =>
            (st.1.react (.expire now timeout n)).map fun (s, out) => (s, st.2 ++ out)) st := by
    intro es
    induction es with
    | nil => exact fun _ _ _ => rfl
    | cons e es ih =>
      intro st hnodup hseen
      obtain ⟨hhead, htail⟩ := nodupKeys_cons.mp hnodup
      obtain ⟨he, hseen⟩ := forall_mem_cons.mp hseen
      by_cases hlate : timeout < now - e.2
      · have hoverdue : st.1.Overdue now timeout e.1 := ⟨e.2, he, hlate⟩
        rw [foldlM_cons, if_pos hlate, filter_cons_of_pos (by simpa using hlate),
          map_cons, foldlM_cons, react, if_pos hoverdue]
        cases hlose : st.1.loseNode e.1 with
        | none => rfl
        | some r =>
          refine ih _ htail fun e' he' => ?_
          have hne : e'.1 ≠ e.1 := fun heq => hhead (heq ▸ mem_keys_of_mem he')
          rw [(membership_of_loseNode hlose).2.2, AList.lookup_erase_ne hne]
          exact hseen e' he'
      · rw [foldlM_cons, if_neg hlate, filter_cons_of_neg (by simpa using hlate)]
        exact ih st htail hseen
  exact hloop _ _ s.lastSeen.nodupKeys fun e he => AList.mem_lookup_iff.mpr he

end SeedServer

end Fino.Cluster
