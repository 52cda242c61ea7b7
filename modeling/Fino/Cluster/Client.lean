import Fino.Cluster.Seed

/-!
# The client

`ClusterClient` of `js/internal/cluster/client.ts`, which runs on every node but the seed: it asks
for remote realms, runs realms behind relays, puts arriving frames in order, and reports exits. A
call returns the next state and what the client does, in order.

A relay leaves the map when it is finalized, so its flags `closed` and `finalized` are never set
there. `RealmMessage` is what a realm writes to its port.
-/

namespace Fino.Cluster

open Lib
open Workflow (Time)

variable {V : Type}

/-! ## The model -/

def ClusterMessage.isRoutine : ClusterMessage V → Bool
  | .portMsg _ => true
  | .heartbeat _ => true
  | _ => false

/-- What the host of a realm keeps to pass its messages on to the parent. -/
structure RealmRelay where
  childPortId : String
  parentPortId : String
  lastPortSeq : ℕ
  lastCallError : Option String
deriving DecidableEq

/-- `ClusterClient`; of ports, handlers and promises only the keys. -/
structure ClusterClient where
  nodeId : String
  peers : OrderedMap String PeerInfo
  relays : OrderedMap String RealmRelay
  exitHandlers : OrderedSet String
  exitedRealms : OrderedMap String (Option String)
  inboundPortSequences : OrderedMap String PortSequenceState
  pendingRealmExits : OrderedMap String RealmExitMessage
  outboundPortSequences : OrderedMap String ℕ
  pendingSpawns : OrderedSet String
  localHandle : ℕ

/-- What the client does: sends a message, hands a frame to `#deliverPortMessage`, calls an exit
handler, orders a realm to terminate, or settles a spawn. -/
inductive Effect (V : Type)
  | send (nodeId : String) (msg : ClusterMessage V)
  | deliver (msg : PortMessage)
  | exited (realmId : String) (error : Option String)
  | terminate (childPortId : String)
  | resolve (spawnReqId childPortId : String)
  | reject (spawnReqId error : String)
deriving DecidableEq

def Effect.message : Effect V → Option (ClusterMessage V)
  | .send _ msg => some msg
  | _ => none

/-- What `decodeEnvelope` and `deserialize` say about a message of a realm. -/
inductive EnvelopeKind
  | terminate
  /-- The text of the error; `none` where the payload cannot be read. -/
  | callError (message : Option String)
  | other
  /-- The header cannot be read. -/
  | malformed
deriving DecidableEq

/-- A message that a realm has written to its port. -/
structure RealmMessage where
  kind : EnvelopeKind
  header : List UInt8
  parts : List (List UInt8)
deriving DecidableEq

namespace ClusterClient

/-- The name of the seed in the transport of a client. -/
def seedName : String := "__seed__"

variable (nodeId : String)

def start : ClusterClient :=
  ⟨nodeId, ∅, ∅, ∅, ∅, ∅, ∅, ∅, ∅, 0⟩

/-- `PayloadFormat.V8StructuredClone`. -/
def v8StructuredClone : ℕ := 1

variable (c : ClusterClient)

def onRealmExit (childPortId : String) : ClusterClient × List (Effect V) :=
  match c.exitedRealms.lookup childPortId with
  | some error =>
    ({ c with exitedRealms := c.exitedRealms.erase childPortId }, [.exited childPortId error])
  | none => ({ c with exitHandlers := c.exitHandlers.add childPortId }, [])

def unregisterPort (portId : String) : ClusterClient :=
  { c with outboundPortSequences := c.outboundPortSequences.erase portId }

def sendPortMsg (fromPort toPort : String) (parts : List (List UInt8)) :
    ClusterClient × List (Effect V) :=
  let seq := (c.outboundPortSequences.lookup fromPort).getD 0 + 1
  ({ c with outboundPortSequences := c.outboundPortSequences.set fromPort seq },
    [.send (nodeIdFromId toPort)
      (.portMsg ⟨fromPort, toPort, parts, seq, some v8StructuredClone⟩)])

def spawnReqId (handle : ℕ) : String := s!"{nodeId}-{handle}"

def childPortId (handle : ℕ) : String := s!"{nodeId}/{handle}"

def spawnRemote (parentPortId : String) (config : SerializedSpawnConfig V) :
    ClusterClient × List (Effect V) :=
  let spawnReqId := spawnReqId c.nodeId c.localHandle
  ({ c with
      localHandle := c.localHandle + 1
      pendingSpawns := c.pendingSpawns.add spawnReqId },
    [.send seedName (.spawn spawnReqId parentPortId config)])

def takeOrderedPortMessages (msg : PortMessage) : ClusterClient × List PortMessage :=
  let (state, ready) :=
    ((c.inboundPortSequences.lookup msg.fromPort).getD .empty).take msg.seq msg
  ({ c with inboundPortSequences := c.inboundPortSequences.set msg.fromPort state }, ready)

def deliveredPortSequence (fromPort : String) : ℕ :=
  ((c.inboundPortSequences.lookup fromPort).map (·.next)).getD 1 - 1

/-- The exit handler is called, or the exit kept for it; the stream is over. -/
def settleExit (realmId : String) (error : Option String) : ClusterClient × List (Effect V) :=
  let rest := { c with
    pendingRealmExits := c.pendingRealmExits.erase realmId
    inboundPortSequences := c.inboundPortSequences.erase realmId }
  if realmId ∈ c.exitHandlers.keys then
    ({ rest with exitHandlers := c.exitHandlers.erase realmId }, [.exited realmId error])
  else ({ rest with exitedRealms := c.exitedRealms.set realmId error }, [])

def deliverRealmExit (msg : RealmExitMessage) : ClusterClient × List (Effect V) :=
  c.settleExit msg.realmId msg.error

def disconnected : String := s!"fino:cluster — peer {nodeId} disconnected"

/-- The part of a map whose keys are not identifiers of the node. -/
def withoutNode {ν : Type} (m : OrderedMap String ν) (nodeId : String) : OrderedMap String ν :=
  (m.keys.filter fun id => nodeIdFromId id = nodeId).foldl (fun m id => m.erase id) m

/-- `PEER_DOWN`. -/
def handlePeerDown (nodeId : String) : ClusterClient × List (Effect V) :=
  ({ c with
      peers := c.peers.erase nodeId
      exitHandlers := withoutNode c.exitHandlers nodeId
      inboundPortSequences := withoutNode c.inboundPortSequences nodeId
      pendingRealmExits := withoutNode c.pendingRealmExits nodeId },
    (c.exitHandlers.keys.filter fun id => nodeIdFromId id = nodeId).map
      (.exited · (some (disconnected nodeId))))

/-- `#handleSpawn`; `failure` is why the realm cannot be created. -/
def handleSpawn (failure : Option String) (spawnReqId parentPortId : String) :
    ClusterClient × List (Effect V) :=
  let childPortId := childPortId c.nodeId c.localHandle
  let c := { c with localHandle := c.localHandle + 1 }
  match failure with
  | some error => (c, [.send seedName (.spawnAck spawnReqId "" false (some error))])
  | none =>
    ({ c with relays := c.relays.set childPortId ⟨childPortId, parentPortId, 0, none⟩ },
      [.send seedName (.spawnAck spawnReqId childPortId true none)])

/-- `SPAWN_ACK`. -/
def handleSpawnAck (spawnReqId childPortId : String) (ok : Bool)
    (error : Option String) : ClusterClient × List (Effect V) :=
  ({ c with pendingSpawns := c.pendingSpawns.erase spawnReqId },
    if spawnReqId ∈ c.pendingSpawns.keys then
      [if ok then .resolve spawnReqId childPortId
        else .reject spawnReqId (error.getD "Spawn failed")]
    else [])

/-- `#handle`; `failure` is why a realm cannot be created. -/
def handle (failure : Option String) :
    ClusterMessage V → ClusterClient × List (Effect V)
  | .welcome _ peers =>
    ({ c with peers := peers.foldl (fun m p => m.set p.nodeId p) c.peers }, [])
  | .peerUp peer => ({ c with peers := c.peers.set peer.nodeId peer }, [])
  | .peerDown nodeId => c.handlePeerDown nodeId
  | .spawnAck spawnReqId childPortId ok error => c.handleSpawnAck spawnReqId childPortId ok error
  | .spawn spawnReqId parentPortId _ => c.handleSpawn failure spawnReqId parentPortId
  | .terminate realmId =>
    if realmId ∈ c.relays.keys then (c, [.terminate realmId])
    else c.settleExit realmId (some (disconnected (nodeIdFromId realmId)))
  | .realmExit msg =>
    if c.deliveredPortSequence msg.realmId < msg.lastPortSeq then
      ({ c with pendingRealmExits := c.pendingRealmExits.set msg.realmId msg }, [])
    else c.deliverRealmExit msg
  | .portMsg msg =>
    let (c, ready) := c.takeOrderedPortMessages msg
    let delivered : List (Effect V) := ready.map .deliver
    match c.pendingRealmExits.lookup msg.fromPort with
    | none => (c, delivered)
    | some pendingExit =>
      if pendingExit.lastPortSeq ≤ c.deliveredPortSequence msg.fromPort then
        let (c, out) := deliverRealmExit
          { c with pendingRealmExits := c.pendingRealmExits.erase msg.fromPort } pendingExit
        (c, delivered ++ out)
      else (c, delivered)
  | .hello .. | .heartbeat .. => (c, [])

/-! ### Relays -/

/-- The loop of `#drainInbound`, and whether it met the order to terminate. -/
def forward : RealmRelay → List RealmMessage → RealmRelay × List (Effect V) × Bool
  | relay, [] => (relay, [], false)
  | relay, m :: rest =>
    if m.parts = [] then forward relay rest
    else match m.kind with
    | .malformed => forward relay rest
    | .terminate => (relay, [], true)
    | kind =>
      let sent := { relay with
        lastPortSeq := relay.lastPortSeq + 1
        lastCallError := match kind with
          | .callError (some message) => some message
          | _ => relay.lastCallError }
      let (final, out, ends) := forward sent rest
      (final, .send seedName (.portMsg ⟨relay.childPortId, relay.parentPortId, m.header :: m.parts,
        sent.lastPortSeq, none⟩) :: out, ends)

/-- `finalize` of `#runRelayLoop`: the rest is sent, the relay removed, the exit reported. -/
def finalize (relay : RealmRelay) (written : List RealmMessage)
    (stepError : Option String) : ClusterClient × List (Effect V) :=
  let (relay, out, _) := forward relay written
  ({ c with
      relays := c.relays.erase relay.childPortId
      inboundPortSequences := c.inboundPortSequences.erase relay.parentPortId },
    out ++ [.send seedName
      (.realmExit ⟨relay.childPortId, relay.lastPortSeq, stepError.or relay.lastCallError⟩)])

/-- `#drainInbound`. `written` is what the realm wrote since, if the loop stops. -/
def drainInbound (relay : RealmRelay) (batch written : List RealmMessage)
    (stepError : Option String) : ClusterClient × List (Effect V) :=
  let (relay, out, ends) := forward relay batch
  let c := { c with relays := c.relays.set relay.childPortId relay }
  if ends then
    let (c, last) := c.finalize relay written stepError
    (c, out ++ last)
  else (c, out)

/-- The error of what is pending when the client is stopped. -/
def connectionClosed : String := "fino:cluster — cluster connection closed"

/-- `stop`; `written` is what the realms have still written. -/
def stop (written : String → List RealmMessage) : ClusterClient × List (Effect V) :=
  ({ c with
      relays := ∅
      exitHandlers := ∅
      inboundPortSequences := ∅
      pendingRealmExits := ∅
      outboundPortSequences := ∅
      pendingSpawns := ∅ },
    c.relays.entries.flatMap (fun e => .terminate e.1 :: (forward e.2 (written e.1)).2.1) ++
      c.exitHandlers.keys.map (.exited · (some connectionClosed)) ++
      c.pendingSpawns.keys.map (.reject · connectionClosed))

/-! ### Inputs -/

/-- What happens to a client: a message, a call of the program, the heartbeat timer, or a realm that
writes or ends. -/
inductive Input (V : Type)
  | handle (failure : Option String) (msg : ClusterMessage V)
  | spawnRemote (parentPortId : String) (config : SerializedSpawnConfig V)
  | sendPortMsg (fromPort toPort : String) (parts : List (List UInt8))
  | onRealmExit (childPortId : String)
  | unregisterPort (portId : String)
  | heartbeat (ts : Time)
  | written (childPortId : String) (batch written : List RealmMessage) (stepError : Option String)
  | ended (childPortId : String) (written : List RealmMessage) (stepError : Option String)
  | stop (written : String → List RealmMessage)

/-- The input comes from the program of the node, its timers or its realms. -/
def Input.isCall : Input V → Bool
  | .handle .. => false
  | .stop .. => false
  | _ => true

/-- What the client does; there is nothing to do for a relay that is not there. -/
def react : Input V → Option (ClusterClient × List (Effect V))
  | .handle failure msg => some (c.handle failure msg)
  | .spawnRemote parentPortId config => some (c.spawnRemote parentPortId config)
  | .sendPortMsg fromPort toPort parts => some (c.sendPortMsg fromPort toPort parts)
  | .onRealmExit childPortId => some (c.onRealmExit childPortId)
  | .unregisterPort portId => some (c.unregisterPort portId, [])
  | .heartbeat ts => some (c, [.send seedName (.heartbeat ts)])
  | .written childPortId batch written stepError =>
    (c.relays.lookup childPortId).map fun relay => c.drainInbound relay batch written stepError
  | .ended childPortId written stepError =>
    (c.relays.lookup childPortId).map fun relay => c.finalize relay written stepError
  | .stop written => some (c.stop written)

def step (a : Input V) : Option ClusterClient := (c.react a).map Prod.fst

def effects (a : Input V) : List (Effect V) :=
  ((c.react a).map Prod.snd).getD []

/-! ## Identifiers -/

lemma spawnReqId_inj {n n' : String} {k k' : ℕ} (h : spawnReqId n k = spawnReqId n' k') :
    n = n' ∧ k = k' := by
  have heq : n ++ "-" ++ k.repr = n' ++ "-" ++ k'.repr := h
  exact mint_inj (c := '-') (by decide) (by simpa using congrArg String.toList heq)

lemma childPortId_inj {n n' : String} {k k' : ℕ} (h : childPortId n k = childPortId n' k') :
    n = n' ∧ k = k' := by
  have heq : n ++ "/" ++ k.repr = n' ++ "/" ++ k'.repr := h
  exact mint_inj (c := '/') (by decide) (by simpa using congrArg String.toList heq)

/-! ## What an input can do -/

variable {c d : ClusterClient} {a : Input V} {out : List (Effect V)}

lemma forward_spec (relay : RealmRelay) (l : List RealmMessage) :
    (forward (V := V) relay l).1.childPortId = relay.childPortId ∧
      (forward (V := V) relay l).1.parentPortId = relay.parentPortId ∧
      ∀ e ∈ (forward (V := V) relay l).2.1, ∃ msg, e = .send seedName (.portMsg msg) := by
  induction l generalizing relay with
  | nil => exact ⟨rfl, rfl, by simp [forward]⟩
  | cons m l ih =>
    unfold forward
    split_ifs
    · exact ih relay
    · split
      · exact ih relay
      · exact ⟨rfl, rfl, by simp⟩
      · obtain ⟨hchild, hparent, hsent⟩ := ih { relay with
          lastPortSeq := relay.lastPortSeq + 1
          lastCallError := match m.kind with
            | .callError (some message) => some message
            | _ => relay.lastCallError }
        refine ⟨hchild, hparent, fun e he => ?_⟩
        rcases List.mem_cons.mp he with rfl | he
        · exact ⟨_, rfl⟩
        · exact hsent e he

/-- Each relay is kept under the port of its realm. -/
def Keyed (c : ClusterClient) : Prop :=
  ∀ x relay, c.relays.lookup x = some relay → relay.childPortId = x

def ports (c : ClusterClient) (x : String) : Option (String × String) :=
  (c.relays.lookup x).map fun relay => (relay.childPortId, relay.parentPortId)

/-- What an input can do, as far as spawns and relays are concerned. -/
inductive Move (c : ClusterClient) : Input V → ClusterClient → List (Effect V) → Prop
  /-- A spawn is asked for. -/
  | ask {parentPortId : String} {config : SerializedSpawnConfig V} :
      Move c (.spawnRemote parentPortId config)
        { c with
          localHandle := c.localHandle + 1
          pendingSpawns := c.pendingSpawns.add (spawnReqId c.nodeId c.localHandle) }
        [.send seedName (.spawn (spawnReqId c.nodeId c.localHandle) parentPortId config)]
  /-- A realm is made. -/
  | make {r parentPortId : String} {config : SerializedSpawnConfig V} :
      Move c (.handle none (.spawn r parentPortId config))
        { c with
          localHandle := c.localHandle + 1
          relays := c.relays.set (childPortId c.nodeId c.localHandle)
            ⟨childPortId c.nodeId c.localHandle, parentPortId, 0, none⟩ }
        [.send seedName (.spawnAck r (childPortId c.nodeId c.localHandle) true none)]
  /-- A realm cannot be made. -/
  | refuse {error r parentPortId : String} {config : SerializedSpawnConfig V} :
      Move c (.handle (some error) (.spawn r parentPortId config))
        { c with localHandle := c.localHandle + 1 }
        [.send seedName (.spawnAck r "" false (some error))]
  /-- A realm is ordered to terminate. -/
  | order {failure : Option String} {x : String} (hx : x ∈ c.relays) :
      Move c (.handle failure (.terminate x)) c [.terminate x]
  /-- A relay ends. -/
  | finish {a : Input V} {d : ClusterClient} {out : List (Effect V)} (e : RealmExitMessage)
      (frames : List (ClusterMessage V)) (ha : a.isCall)
      (hask : ∀ p config, a ≠ .spawnRemote p config) (hx : e.realmId ∈ c.relays)
      (hnode : d.nodeId = c.nodeId) (hhandle : d.localHandle = c.localHandle)
      (hrelays : ∀ x, d.ports x = if x = e.realmId then none else c.ports x)
      (hframes : ∀ msg ∈ frames, msg.isRoutine)
      (hout : out.filterMap Effect.message = frames ++ [.realmExit e]) : Move c a d out
  /-- Anything else. -/
  | other {a : Input V} {d : ClusterClient} {out : List (Effect V)}
      (hspawn : ∀ failure r p config, a ≠ .handle failure (.spawn r p config))
      (hask : ∀ p config, a ≠ .spawnRemote p config) (hnode : d.nodeId = c.nodeId)
      (hhandle : d.localHandle = c.localHandle) (hrelays : ∀ x, d.ports x = c.ports x)
      (hout : ∀ msg ∈ out.filterMap Effect.message, msg.isRoutine) : Move c a d out

lemma isRoutine_of_forward {relay : RealmRelay} {l : List RealmMessage} {msg : ClusterMessage V}
    (h : msg ∈ (forward relay l).2.1.filterMap Effect.message) :
    msg.isRoutine := by
  obtain ⟨e, he, hmsg⟩ := List.mem_filterMap.mp h
  obtain ⟨frame, rfl⟩ := (forward_spec relay l).2.2 e he
  cases hmsg
  rfl

lemma settleExit_move (c : ClusterClient) (realmId : String) (error : Option String) :
    (c.settleExit (V := V) realmId error).1.nodeId = c.nodeId ∧
      (c.settleExit (V := V) realmId error).1.localHandle = c.localHandle ∧
      (c.settleExit (V := V) realmId error).1.relays = c.relays ∧
      (c.settleExit (V := V) realmId error).2.filterMap Effect.message = [] := by
  unfold settleExit
  split_ifs <;> exact ⟨rfl, rfl, rfl, rfl⟩

lemma Move.of_finalize (before : List (Effect V)) (relay : RealmRelay)
    (written : List RealmMessage) (stepError : Option String) {x : String} {c' : ClusterClient}
    (ha : a.isCall) (hask : ∀ p config, a ≠ .spawnRemote p config) (hx : x ∈ c.relays)
    (hkey : relay.childPortId = x) (hnode : c'.nodeId = c.nodeId)
    (hhandle : c'.localHandle = c.localHandle)
    (hrelays : ∀ y, y ≠ x → c'.relays.lookup y = c.relays.lookup y)
    (hbefore : ∀ msg ∈ before.filterMap Effect.message, msg.isRoutine) :
    Move c a (c'.finalize (V := V) relay written stepError).1
      (before ++ (c'.finalize relay written stepError).2) := by
  have hchild : (forward (V := V) relay written).1.childPortId = x :=
    (forward_spec relay written).1.trans hkey
  refine .finish ⟨(forward relay written).1.childPortId,
      (forward (V := V) relay written).1.lastPortSeq,
      stepError.or (forward (V := V) relay written).1.lastCallError⟩
    (before.filterMap Effect.message ++ (forward relay written).2.1.filterMap Effect.message)
    ha hask (hchild.symm ▸ hx) hnode hhandle (fun y => ?_) (fun msg hmsg => ?_) ?_
  · simp only [ports, finalize, hchild]
    rw [AList.lookup_erase_eq_ite]
    split_ifs with hy
    · rfl
    · rw [hrelays y hy]
  · rcases List.mem_append.mp hmsg with hmsg | hmsg
    · exact hbefore msg hmsg
    · exact isRoutine_of_forward hmsg
  · simp [finalize, Effect.message]

lemma ports_congr (h : d.relays = c.relays) (x : String) : d.ports x = c.ports x := by
  rw [ports, h, ports]

/-- A relay has written a batch, and ends if it cannot go on. -/
lemma Move.of_written (hkeyed : c.Keyed) {childPortId : String} {batch written : List RealmMessage}
    {stepError : Option String}
    (h : c.react (.written childPortId batch written stepError) = some (d, out)) :
    Move c (.written childPortId batch written stepError) d out := by
  obtain ⟨relay, hrelay, heq⟩ := Option.map_eq_some_iff.mp h
  have hx : childPortId ∈ c.relays := AList.lookup_isSome.mp (by rw [hrelay]; rfl)
  obtain ⟨hchild, hparent, -⟩ := forward_spec relay batch
  rw [hkeyed _ _ hrelay] at hchild
  have hrelays : ∀ y, y ≠ childPortId → (c.relays.set (forward (V := V) relay batch).1.childPortId
      (forward (V := V) relay batch).1).lookup y = c.relays.lookup y := by
    intro y hy
    rw [hchild, AList.lookup_set, if_neg hy]
  simp only [drainInbound] at heq
  split_ifs at heq
  · cases heq
    exact Move.of_finalize _ _ written stepError rfl (by simp) hx hchild rfl rfl hrelays
      fun msg hmsg => isRoutine_of_forward hmsg
  · cases heq
    refine .other (by simp) (by simp) rfl rfl (fun y => ?_) fun msg hmsg =>
      isRoutine_of_forward hmsg
    by_cases hy : y = childPortId
    · subst hy
      simp only [ports, hrelay, hchild, AList.lookup_set, if_pos, Option.map_some, hparent,
        hkeyed _ _ hrelay]
    · simp only [ports, hrelays y hy]

/-- A frame completes others, and perhaps an exit that is held back. -/
lemma Move.of_portMsg {failure : Option String} {msg : PortMessage}
    (h : c.react (.handle failure (.portMsg msg)) = some (d, out)) :
    Move c (.handle failure (.portMsg msg)) d out := by
  have hframes : ((c.takeOrderedPortMessages msg).2.map
      (Effect.deliver (V := V))).filterMap Effect.message = [] := by
    simp [Effect.message]
  simp only [react, handle] at h
  split at h
  · cases h
    exact .other (by simp) (by simp) rfl rfl (ports_congr rfl) (by simp [hframes])
  · next exit hexit =>
    split_ifs at h
    · obtain ⟨hnode, hhandle, hrelays, hout⟩ := settleExit_move (V := V)
        { (c.takeOrderedPortMessages msg).1 with
          pendingRealmExits :=
            (c.takeOrderedPortMessages msg).1.pendingRealmExits.erase msg.fromPort }
        exit.realmId exit.error
      cases h
      refine .other (by simp) (by simp) hnode hhandle (ports_congr hrelays) fun msg hmsg => ?_
      rw [List.filterMap_append, hframes] at hmsg
      exact absurd ((congrArg _ hout).mp hmsg) List.not_mem_nil
    · cases h
      exact .other (by simp) (by simp) rfl rfl (ports_congr rfl) (by simp [hframes])

/-- Every input but `stop` makes one of the moves. -/
lemma Move.of_react (hkeyed : c.Keyed) (hstop : ∀ written, a ≠ .stop written)
    (h : c.react a = some (d, out)) : Move c a d out := by
  cases a with
  | stop written => exact absurd rfl (hstop written)
  | spawnRemote =>
    cases h
    exact .ask
  | sendPortMsg | heartbeat =>
    cases h
    exact .other (by simp) (by simp) rfl rfl (ports_congr rfl)
      (by simp [Effect.message, ClusterMessage.isRoutine])
  | unregisterPort =>
    cases h
    exact .other (by simp) (by simp) rfl rfl (ports_congr rfl) (by simp)
  | onRealmExit childPortId =>
    simp only [react, onRealmExit] at h
    split at h <;> cases h <;>
    exact .other (by simp) (by simp) rfl rfl (ports_congr rfl) (by simp [Effect.message])
  | ended childPortId written stepError =>
    obtain ⟨relay, hrelay, heq⟩ := Option.map_eq_some_iff.mp h
    have hx : childPortId ∈ c.relays := AList.lookup_isSome.mp (by rw [hrelay]; rfl)
    have hmove : Move c (.ended childPortId written stepError) _ ([] ++ _) :=
      Move.of_finalize (V := V) [] relay written stepError rfl (by simp) hx (hkeyed _ _ hrelay) rfl
        rfl (fun _ _ => rfl) (by simp)
    rw [heq] at hmove
    exact hmove
  | written => exact Move.of_written hkeyed h
  | handle failure msg =>
    cases msg with
    | welcome | peerUp | hello | heartbeat =>
      cases h
      exact .other (by simp) (by simp) rfl rfl (ports_congr rfl) (by simp)
    | peerDown nodeId =>
      cases h
      exact .other (by simp) (by simp) rfl rfl (ports_congr rfl) (by simp [Effect.message])
    | spawn r parentPortId config =>
      cases failure with
      | none =>
        cases h
        exact .make
      | some error =>
        cases h
        exact .refuse
    | spawnAck r childPortId ok error =>
      cases h
      refine .other (by simp) (by simp) rfl rfl (ports_congr rfl) fun msg hmsg => ?_
      split_ifs at hmsg <;> simp [Effect.message] at hmsg
    | terminate realmId =>
      simp only [react, handle] at h
      split_ifs at h with hx
      · cases h
        exact .order hx
      · obtain ⟨hnode, hhandle, hrelays, hout⟩ := settleExit_move (V := V) c realmId
          (some (disconnected (nodeIdFromId realmId)))
        rw [Option.some.inj h] at hnode hhandle hrelays hout
        exact .other (by simp) (by simp) hnode hhandle (ports_congr hrelays) (by simp [hout])
    | realmExit exit =>
      simp only [react, handle] at h
      split_ifs at h
      · cases h
        exact .other (by simp) (by simp) rfl rfl (ports_congr rfl) (by simp)
      · obtain ⟨hnode, hhandle, hrelays, hout⟩ := settleExit_move (V := V) c exit.realmId exit.error
        rw [deliverRealmExit] at h
        rw [Option.some.inj h] at hnode hhandle hrelays hout
        exact .other (by simp) (by simp) hnode hhandle (ports_congr hrelays) (by simp [hout])
    | portMsg => exact Move.of_portMsg h

end ClusterClient

end Fino.Cluster
