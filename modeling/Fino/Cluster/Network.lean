import Fino.Cluster.Client
import Fino.Cluster.NodeDown

/-!
# The seed, the clients and what is between them

`Network` has the seed, the running clients, and two lists of messages, any of which can be
delivered next: nothing is lost, and nothing is said about order. A node joins with its `HELLO` and
can crash at any time; the seed learns of it from the closed connection, after which nothing arrives
on it, or from its sweep. An order to terminate is on its way until the realm ends. `Records`
remembers who asked for each spawn, which spawn each realm was made for, and the tree.
-/

namespace Fino.Cluster

open Lib ClusterClient Lib.Forest
open Workflow (Time)

variable {V : Type}

/-! ## The model -/

def Effect.ordered : Effect V → Option String
  | .terminate childPortId => some childPortId
  | _ => none

/-- The seed, the running clients, the messages on their way to the seed and to nodes, and the
orders to terminate that realms have. -/
structure Network (V : Type) where
  seed : SeedServer
  clients : OrderedMap String ClusterClient
  toSeed : List (String × ClusterMessage V)
  toNode : List (String × ClusterMessage V)
  terminating : List (String × String)

namespace Network

def start (seedId : String) : Network V := ⟨.start seedId, ∅, [], [], []⟩

variable (w : Network V)

/-- No message is under way, and no realm is being terminated. -/
def Quiescent : Prop := w.toSeed = [] ∧ w.toNode = [] ∧ w.terminating = []

/-- A node joins, a program or realm does something, a message is delivered, a node crashes, or the
seed learns of it. A stopped node is one that crashes. -/
inductive Action (V : Type)
  | join (now : Time) (n : String) (load : NodeLoad)
  | call (n : String) (a : ClusterClient.Input V)
  | toSeed (i : ℕ) (now : Time)
  | toNode (i : ℕ) (failure : Option String)
  | crash (n : String)
  | peerDown (now : Time) (n : String)
  | expire (now timeout : Time) (n : String)

/-- The messages of the seed to nodes that are running; others are lost. -/
def route (clients : OrderedMap String ClusterClient) (out : List (Sent V)) :
    List (String × ClusterMessage V) :=
  out.flatMap fun
    | .send n msg => if n ∈ clients then [(n, msg)] else []
    | .broadcastExcept n msg => (clients.keys.filter (· ≠ n)).map fun m => (m, msg)

def seedStep (a : SeedServer.Input V) : Option (Network V) :=
  (w.seed.react a).map fun (s, out) =>
    { w with seed := s, toNode := w.toNode ++ route w.clients out }

/-- A client does something; the orders to terminate ended realms are gone. -/
def clientStep (n : String) (a : ClusterClient.Input V) : Option (Network V) :=
  (w.clients.lookup n).bind fun c => (c.react a).map fun (c, out) =>
    { w with
      clients := w.clients.set n c
      toSeed := w.toSeed ++ (out.filterMap Effect.message).map fun msg => (n, msg)
      terminating := (w.terminating ++ (out.filterMap Effect.ordered).map fun x => (n, x)).filter
        fun t => t.1 ≠ n ∨ t.2 ∈ c.relays }

def step : Action V → Option (Network V)
  | .join now n load =>
    if n ∈ w.clients then none
    else seedStep { w with clients := w.clients.set n (.start n) } (.handle now n (.hello n load))
  | .call n a => if a.isCall then w.clientStep n a else none
  | .toSeed i now => w.toSeed[i]?.bind fun m =>
      seedStep { w with toSeed := w.toSeed.eraseIdx i } (.handle now m.1 m.2)
  | .toNode i failure => w.toNode[i]?.bind fun m =>
      clientStep { w with toNode := w.toNode.eraseIdx i } m.1 (.handle failure m.2)
  | .crash n =>
    if n ∈ w.clients then
      some { w with
        clients := w.clients.erase n
        toNode := w.toNode.filter (·.1 ≠ n)
        terminating := w.terminating.filter (·.1 ≠ n) }
    else none
  | .peerDown now n =>
    if n ∈ w.clients then none
    else seedStep { w with toSeed := w.toSeed.filter (·.1 ≠ n) } (.handle now n (.peerDown n))
  | .expire now timeout n => w.seedStep (.expire now timeout n)

/-- The nodes that have joined, who asked for each spawn, the spawn of each realm, and the history.
-/
structure Records (V : Type) where
  joined : List String
  asked : OrderedMap String String
  made : OrderedMap String String
  tree : History V

def Records.empty : Records V := ⟨[], ∅, ∅, .empty⟩

def seedInput : Action V → Option (SeedServer.Input V)
  | .join now n load => some (.handle now n (.hello n load))
  | .toSeed i now => w.toSeed[i]?.map fun m => .handle now m.1 m.2
  | .peerDown now n => some (.handle now n (.peerDown n))
  | .expire now timeout n => some (.expire now timeout n)
  | _ => none

/-- The client to which something happens, and what. -/
def clientInput : Action V → Option (ClusterClient × ClusterClient.Input V)
  | .call n a => (w.clients.lookup n).map fun c => (c, a)
  | .toNode i failure => w.toNode[i]?.bind fun m =>
      (w.clients.lookup m.1).map fun c => (c, .handle failure m.2)
  | _ => none

/-- The spawn that a client asks for, with its node. -/
def asks : ClusterClient × ClusterClient.Input V → Option (String × String)
  | (c, .spawnRemote ..) => some (spawnReqId c.nodeId c.localHandle, c.nodeId)
  | _ => none

/-- The realm that a client makes, with the spawn. -/
def makes : ClusterClient × ClusterClient.Input V → Option (String × String)
  | (c, .handle none (.spawn spawnReqId ..)) =>
    some (childPortId c.nodeId c.localHandle, spawnReqId)
  | _ => none

def note (g : Records V) (w : Network V) (a : Action V) (_ : Network V) : Records V where
  joined := match a with
    | .join _ n _ => n :: g.joined
    | _ => g.joined
  asked := ((w.clientInput a).bind asks).elim g.asked fun e => g.asked.set e.1 e.2
  made := ((w.clientInput a).bind makes).elim g.made fun e => g.made.set e.1 e.2
  tree := (w.seedInput a).elim g.tree fun b => SeedServer.note g.tree w.seed b w.seed

def stepRecording : Network V × Records V → Action V → Option (Network V × Records V) :=
  watch step note

/-- The node has asked for no pending spawn, and for no realm in the tree on another node. -/
def Losable (g : Records V) (n : String) : Prop :=
  (∀ r info, w.seed.pendingSpawns.lookup r = some info → info.requesterNodeId ≠ n) ∧
    w.seed.NoOrphans g.tree n

/-- A node joins once, the seed registers without loss, and it loses only a crashed node from which
nothing is on its way and that is `Losable`. -/
def Careful (p : Network V × Records V) (a : Action V) : Prop :=
  (∀ b ∈ p.1.seedInput a, SeedServer.Registers (p.1.seed, p.2.tree) b) ∧
    match a with
    | .join _ n _ => n ∉ p.2.joined
    | .peerDown _ n => p.1.Losable p.2 n
    | .expire _ _ n => n ∉ p.1.clients ∧ (∀ m ∈ p.1.toSeed, m.1 ≠ n) ∧ p.1.Losable p.2 n
    | _ => True

end Network

end Fino.Cluster
