import Fino.Cluster.Client
import Fino.Lib.Transition

/-!
# Frames in order

The frames of a port may arrive in any order and more than once, at the seed and at the client that
hosts the destination; both put them in order with a buffer for the source. `Traffic` remembers what
has arrived and what was sent or handed on.

The client also drops the buffer when any relay ends that was spawned under the port, and then hands
on nothing more (`sibling_stops_stream`). As long as frames come while the buffers are there, both
hand them on in order as far as they have arrived without a gap (`frames_in_order`).
-/

namespace Fino.Cluster

open Lib List Option ClusterClient Lib.Reorder
open Workflow (Time)

variable {V : Type}

/-- The frames that one port sends to another, by their numbers. -/
structure Stream where
  fromPort : String
  toPort : String
  payload : ℕ → List (List UInt8)
  payloadFormat : ℕ → Option ℕ

def Stream.frame (σ : Stream) (i : ℕ) : PortMessage :=
  ⟨σ.fromPort, σ.toPort, σ.payload i, i, σ.payloadFormat i⟩

/-- Every buffer holds frames of its own port only. -/
def OwnFrames (m : OrderedMap String PortSequenceState) : Prop :=
  ∀ x b, m.lookup x = some b → b.All (·.fromPort = x)

variable {m m' : OrderedMap String PortSequenceState} {handed : List PortMessage}

lemma OwnFrames.mono (h : OwnFrames m)
    (hsub : ∀ x b, m'.lookup x = some b → m.lookup x = some b) : OwnFrames m' :=
  fun x b hb => h x b (hsub x b hb)

lemma OwnFrames.take (h : OwnFrames m) (msg : PortMessage) :
    OwnFrames (m.set msg.fromPort (((m.lookup msg.fromPort).getD .empty).take msg.seq msg).1) ∧
      ∀ y ∈ (((m.lookup msg.fromPort).getD .empty).take msg.seq msg).2,
        y.fromPort = msg.fromPort := by
  have hall : ((m.lookup msg.fromPort).getD .empty).All (·.fromPort = msg.fromPort) := by
    cases hb : m.lookup msg.fromPort with
    | none => exact fun i x hx => absurd hx (by simp [Buffer.empty])
    | some b => exact h _ b hb
  obtain ⟨hkept, hready⟩ := hall.take msg.seq rfl
  refine ⟨fun x b hb => ?_, hready⟩
  rw [AList.lookup_set] at hb
  split_ifs at hb with hx
  · rw [hx, ← some.inj hb]
    exact hkept
  · exact h x b hb

/-- The buffers with a frame that may have arrived, and the frames whose turn it is. -/
def receive (m : OrderedMap String PortSequenceState) (msg : Option PortMessage) :
    OrderedMap String PortSequenceState × List PortMessage :=
  match msg with
  | none => (m, [])
  | some msg =>
    let (state, ready) := ((m.lookup msg.fromPort).getD .empty).take msg.seq msg
    (m.set msg.fromPort state, ready)

def ofPort (f : String) (l : List PortMessage) : List PortMessage := l.filter (·.fromPort = f)

def numbers (l : List PortMessage) : Set ℕ := { i | i ∈ l.map (·.seq) }

lemma OwnFrames.receive (h : OwnFrames m) (msg : Option PortMessage) :
    OwnFrames (receive m msg).1 ∧ ∀ y ∈ (receive m msg).2, ∃ x ∈ msg, y.fromPort = x.fromPort := by
  cases msg with
  | none => exact ⟨h, by simp [Cluster.receive]⟩
  | some x =>
    obtain ⟨hown, hready⟩ := h.take x
    exact ⟨hown, fun y hy => ⟨x, rfl, hready y hy⟩⟩

lemma Stream.hop {σ : Stream} {arrived : List PortMessage} {msg : Option PortMessage}
    (h : Hop σ.frame (numbers arrived) handed (m.lookup σ.fromPort)) (hown : OwnFrames m)
    (hmsg : ∀ x ∈ msg, x.fromPort = σ.fromPort →
      1 ≤ x.seq ∧ x = σ.frame x.seq ∧ (arrived = [] ∨ σ.fromPort ∈ m)) :
    Hop σ.frame (numbers (arrived ++ ofPort σ.fromPort msg.toList))
      (handed ++ ofPort σ.fromPort (receive m msg).2)
      ((receive m msg).1.lookup σ.fromPort) := by
  cases msg with
  | none => simpa [receive, ofPort] using h
  | some x =>
    have hready := (hown.take x).2
    by_cases hx : x.fromPort = σ.fromPort
    · obtain ⟨hpos, hframe, hlive⟩ := hmsg x rfl hx
      have harrived : numbers (arrived ++ ofPort σ.fromPort (some x).toList) =
          insert x.seq (numbers arrived) := by
        ext i
        simp [numbers, ofPort, hx, or_comm, eq_comm]
      have hall : ofPort σ.fromPort (receive m (some x)).2 = (receive m (some x)).2 := by
        refine filter_eq_self.mpr fun y hy => ?_
        simpa [hx] using hready y hy
      have hempty : numbers arrived = ∅ ∨ (m.lookup σ.fromPort).isSome := by
        refine hlive.imp (fun hnil => ?_) AList.lookup_isSome.mpr
        simp [numbers, hnil]
      have htake := h.take hpos hempty
      rw [← hframe, ← hx] at htake
      rw [harrived, hall, ← hx]
      simp only [receive, AList.lookup_set, if_pos]
      exact htake
    · -- A frame of another port changes nothing here.
      have hnone : ofPort σ.fromPort (receive m (some x)).2 = [] := by
        refine filter_eq_nil_iff.mpr fun y hy => ?_
        simpa [hready y hy] using hx
      have hnil : ofPort σ.fromPort (some x).toList = [] := by simp [ofPort, hx]
      rw [hnone, hnil, append_nil, append_nil]
      simp only [receive, AList.lookup_set, if_neg (Ne.symm hx)]
      exact h

/-! ## The seed -/

def Sent.frameTo (n : String) : Sent V → Option PortMessage
  | .send nodeId (.portMsg msg) => if nodeId = n then some msg else none
  | _ => none

namespace SeedServer

variable {s t : SeedServer} {a : Input V} {out : List (Sent V)}

def Input.frame : Input V → Option PortMessage
  | .handle _ _ (.portMsg msg) => some msg
  | _ => none

lemma lookup_of_forget {l : List String} {x : String} {b : PortSequenceState}
    (h : (s.forget l).portSequences.lookup x = some b) (hm : s.portSequences = m) :
    m.lookup x = some b := by
  rw [lookup_portSequences_forget, hm] at h
  split_ifs at h
  exact h

lemma filterMap_frameTo_eq_nil {n : String} (h : ∀ n msg, .send n (.portMsg msg) ∉ out) :
    out.filterMap (Sent.frameTo n) = [] := by
  refine filterMap_eq_nil_iff.mpr fun m hm => ?_
  cases m with
  | broadcastExcept => rfl
  | send nodeId msg =>
    cases msg with
    | portMsg msg => exact absurd hm (h nodeId msg)
    | _ => rfl

lemma filterMap_frameTo_routed (ready : List PortMessage) (n : String) :
    (ready.filterMap fun msg => s.toHost (V := V) msg.toPort (.portMsg msg)).filterMap
      (Sent.frameTo n) = ready.filter fun y => truthy (s.portNodes.lookup y.toPort) = some n := by
  rw [filterMap_filterMap, ← filterMap_eq_filter]
  refine filterMap_congr fun y _ => ?_
  rw [toHost]
  cases hhost : truthy (s.portNodes.lookup y.toPort) with
  | none => simp [Option.guard, hhost]
  | some h => by_cases hn : h = n <;> simp [Sent.frameTo, Option.guard, hhost, hn]

/-- After a step the buffers have the frame that arrived, but for those thrown away, and the frames
whose turn it is are sent to the host of their destination. -/
lemma react_frames (h : s.react a = some (t, out)) :
    (∀ x b, t.portSequences.lookup x = some b →
      (receive s.portSequences a.frame).1.lookup x = some b) ∧
    ∀ n, out.filterMap (Sent.frameTo n) = (receive s.portSequences a.frame).2.filter
      fun y => truthy (s.portNodes.lookup y.toPort) = some n := by
  have hlose : ∀ n, s.loseNode n = some (t, out) →
      (∀ x b, t.portSequences.lookup x = some b → s.portSequences.lookup x = some b) ∧
        ∀ n, out.filterMap (Sent.frameTo n) = [] := by
    intro n hn
    obtain ⟨⟨registry, pending, removed, -, rfl⟩, rest, rfl, hnotices⟩ := loseNode_frame hn
    refine ⟨fun x b hb => lookup_of_forget hb rfl, fun n => filterMap_frameTo_eq_nil ?_⟩
    intro n msg hmem
    exact hnotices _ ((mem_cons.mp hmem).resolve_left (by simp))
  cases a with
  | expire now timeout nodeId =>
    simp only [react] at h
    split_ifs at h
    exact hlose nodeId h
  | handle now sender msg =>
    cases msg with
    | hello | welcome | peerUp | terminate | heartbeat =>
      cases h
      exact ⟨fun _ _ hb => hb, fun _ => rfl⟩
    | peerDown => exact hlose sender h
    | spawn spawnReqId parentPortId config =>
      simp only [react, handle] at h
      split at h <;> cases h <;> exact ⟨fun _ _ hb => hb, fun _ => rfl⟩
    | spawnAck spawnReqId childPortId ok error =>
      simp only [react, handle] at h
      split at h <;> cases h
      · exact ⟨fun _ _ hb => hb, fun _ => rfl⟩
      · cases ok <;> exact ⟨fun _ _ hb => hb, fun _ => rfl⟩
    | realmExit exit =>
      simp only [react, handle] at h
      split_ifs at h
      · cases h
        exact ⟨fun _ _ hb => hb, fun _ => rfl⟩
      · have hquiet := portMsg_notMem_of_handleRealmExit h
        obtain ⟨⟨registry, removed, -, rfl⟩, -⟩ := handleRealmExit_frame h
        exact ⟨fun x b hb => lookup_of_forget hb rfl, fun n => filterMap_frameTo_eq_nil hquiet⟩
    | portMsg msg =>
      have hrouted := fun n =>
        filterMap_frameTo_routed (V := V) (s := (s.takeOrderedPortMessages msg).1)
          (s.takeOrderedPortMessages msg).2 n
      simp only [react, handle] at h
      split at h
      · cases h
        exact ⟨fun _ _ hb => hb, hrouted⟩
      · split_ifs at h
        · -- The exit that was held for this frame is processed after the frames.
          obtain ⟨⟨t', rest⟩, hexit, heq⟩ := map_eq_some_iff.mp h
          cases heq
          have hquiet := portMsg_notMem_of_handleRealmExit hexit
          obtain ⟨⟨registry, removed, -, rfl⟩, -⟩ := handleRealmExit_frame hexit
          refine ⟨fun x b hb => lookup_of_forget hb rfl, fun n => ?_⟩
          rw [filterMap_append, filterMap_frameTo_eq_nil hquiet, append_nil]
          exact hrouted n
        · cases h
          exact ⟨fun _ _ hb => hb, hrouted⟩

end SeedServer

/-! ## The client -/

def Effect.delivered : Effect V → Option PortMessage
  | .deliver msg => some msg
  | _ => none

namespace ClusterClient

variable {c d : ClusterClient} {a : Input V} {out : List (Effect V)}

def Input.frame : Input V → Option PortMessage
  | .handle _ (.portMsg msg) => some msg
  | _ => none

lemma filterMap_delivered_eq_nil (h : ∀ msg, .deliver msg ∉ out) :
    out.filterMap Effect.delivered = [] := by
  refine filterMap_eq_nil_iff.mpr fun e he => ?_
  cases e with
  | deliver msg => exact absurd he (h msg)
  | _ => rfl

lemma settleExit_frames (c : ClusterClient) (realmId : String) (error : Option String) :
    (∀ x b, (c.settleExit (V := V) realmId error).1.inboundPortSequences.lookup x = some b →
      c.inboundPortSequences.lookup x = some b) ∧
    (c.settleExit (V := V) realmId error).2.filterMap Effect.delivered = [] := by
  have herase : ∀ x b, (c.inboundPortSequences.erase realmId).lookup x = some b →
      c.inboundPortSequences.lookup x = some b := by
    intro x b hb
    rw [AList.lookup_erase_eq_ite] at hb
    split_ifs at hb
    exact hb
  unfold settleExit
  split_ifs <;> exact ⟨herase, rfl⟩

lemma lookup_of_withoutNode {ν : Type} {m : OrderedMap String ν} {nodeId x : String} {b : ν}
    (h : (withoutNode m nodeId).lookup x = some b) : m.lookup x = some b := by
  rw [withoutNode, SeedServer.lookup_foldl_erase] at h
  split_ifs at h
  exact h

lemma delivered_forward (relay : RealmRelay) (l : List RealmMessage) :
    (forward (V := V) relay l).2.1.filterMap Effect.delivered = [] := by
  refine filterMap_eq_nil_iff.mpr fun e he => ?_
  obtain ⟨msg, rfl⟩ := (forward_spec relay l).2.2 e he
  rfl

lemma finalize_frames (c : ClusterClient) (relay : RealmRelay) (written : List RealmMessage)
    (stepError : Option String) :
    (∀ x b, (c.finalize (V := V) relay written stepError).1.inboundPortSequences.lookup x = some b →
      c.inboundPortSequences.lookup x = some b) ∧
    (c.finalize (V := V) relay written stepError).2.filterMap Effect.delivered = [] := by
  constructor
  · intro x b hb
    unfold finalize at hb
    rw [AList.lookup_erase_eq_ite] at hb
    split_ifs at hb
    exact hb
  · simp only [finalize, filterMap_append, delivered_forward]
    rfl

/-- After a step the buffers have the frame that arrived, but for those thrown away, and the frames
whose turn it is are handed on. -/
lemma react_frames (h : c.react a = some (d, out)) :
    (∀ x b, d.inboundPortSequences.lookup x = some b →
      (receive c.inboundPortSequences a.frame).1.lookup x = some b) ∧
    out.filterMap Effect.delivered = (receive c.inboundPortSequences a.frame).2 := by
  cases a with
  | spawnRemote | sendPortMsg | unregisterPort | heartbeat =>
    cases h
    exact ⟨fun _ _ hb => hb, rfl⟩
  | onRealmExit childPortId =>
    simp only [react, onRealmExit] at h
    split at h <;> cases h <;> exact ⟨fun _ _ hb => hb, rfl⟩
  | written childPortId batch written stepError =>
    obtain ⟨relay, -, heq⟩ := map_eq_some_iff.mp h
    simp only [drainInbound] at heq
    split_ifs at heq
    · obtain ⟨hsub, hquiet⟩ := finalize_frames { c with
          relays := c.relays.set (forward relay batch).1.childPortId
            (forward relay batch).1 }
        (forward (V := V) relay batch).1 written stepError
      cases heq
      refine ⟨hsub, ?_⟩
      rw [filterMap_append, delivered_forward, hquiet]
      rfl
    · cases heq
      exact ⟨fun _ _ hb => hb, delivered_forward relay batch⟩
  | ended childPortId written stepError =>
    obtain ⟨relay, -, heq⟩ := map_eq_some_iff.mp h
    have hframes := finalize_frames (V := V) c relay written stepError
    rw [heq] at hframes
    exact hframes
  | stop written =>
    cases h
    refine ⟨fun x b hb => absurd hb (by simp), filterMap_delivered_eq_nil fun msg hmsg => ?_⟩
    simp only [mem_append, mem_flatMap, mem_cons, List.mem_map, reduceCtorEq,
      false_or, and_false, exists_false, or_false] at hmsg
    obtain ⟨e, -, he⟩ := hmsg
    have hnone := filterMap_eq_nil_iff.mp (delivered_forward e.2 (written e.1)) _ he
    exact absurd hnone (by simp [Effect.delivered])
  | handle failure msg =>
    cases msg with
    | welcome | peerUp | hello | heartbeat =>
      cases h
      exact ⟨fun _ _ hb => hb, rfl⟩
    | peerDown nodeId =>
      cases h
      refine ⟨fun x b hb => lookup_of_withoutNode hb, filterMap_delivered_eq_nil fun msg hmsg => ?_⟩
      simp at hmsg
    | spawn spawnReqId parentPortId config =>
      cases failure <;> cases h <;> exact ⟨fun _ _ hb => hb, rfl⟩
    | spawnAck spawnReqId childPortId ok error =>
      cases h
      refine ⟨fun _ _ hb => hb, filterMap_delivered_eq_nil fun msg hmsg => ?_⟩
      split_ifs at hmsg <;> simp at hmsg
    | terminate realmId =>
      simp only [react, handle] at h
      split_ifs at h
      · cases h
        exact ⟨fun _ _ hb => hb, rfl⟩
      · have hframes := settleExit_frames (V := V) c realmId
          (some (disconnected (nodeIdFromId realmId)))
        rw [some.inj h] at hframes
        exact hframes
    | realmExit exit =>
      simp only [react, handle] at h
      split_ifs at h
      · cases h
        exact ⟨fun _ _ hb => hb, rfl⟩
      · have hframes := settleExit_frames (V := V) c exit.realmId exit.error
        rw [deliverRealmExit] at h
        rw [some.inj h] at hframes
        exact hframes
    | portMsg msg =>
      have hdelivered : ((c.takeOrderedPortMessages msg).2.map
          (Effect.deliver (V := V))).filterMap Effect.delivered =
            (c.takeOrderedPortMessages msg).2 := by
        rw [filterMap_map]
        exact filterMap_some
      simp only [react, handle] at h
      split at h
      · cases h
        exact ⟨fun _ _ hb => hb, hdelivered⟩
      · next exit hexit =>
        split_ifs at h
        · -- The exit that was held for this frame is processed after the frames.
          obtain ⟨hsub, hquiet⟩ := settleExit_frames (V := V)
            { (c.takeOrderedPortMessages msg).1 with
              pendingRealmExits :=
                (c.takeOrderedPortMessages msg).1.pendingRealmExits.erase msg.fromPort }
            exit.realmId exit.error
          cases h
          refine ⟨hsub, ?_⟩
          rw [filterMap_append, hdelivered]
          exact (congrArg _ hquiet).trans (append_nil _)
        · cases h
          exact ⟨fun _ _ hb => hb, hdelivered⟩

end ClusterClient

/-! ## Both hops -/

/-- The two parties that frames pass through on their way to a node. -/
structure Link where
  seed : SeedServer
  client : ClusterClient

inductive Link.Action (V : Type)
  | seed (a : SeedServer.Input V)
  | client (a : ClusterClient.Input V)

def Link.step (x : Link) : Link.Action V → Option Link
  | .seed a => (x.seed.step a).map fun s => { x with seed := s }
  | .client a => (x.client.step a).map fun c => { x with client := c }

def Link.start (seedId nodeId : String) : Link := ⟨.start seedId, .start nodeId⟩

/-- The frames of a port that have arrived at the seed and at the client, and those that each has
handed on. -/
structure Traffic where
  arrived : List PortMessage
  forwarded : List PortMessage
  reached : List PortMessage
  delivered : List PortMessage

def Traffic.empty : Traffic := ⟨[], [], [], []⟩

def Traffic.note (f : String) (g : Traffic) (x : Link) (a : Link.Action V) (_ : Link) : Traffic :=
  match a with
  | .seed a => { g with
      arrived := g.arrived ++ ofPort f a.frame.toList
      forwarded := g.forwarded ++
        ofPort f ((x.seed.sends a).filterMap (Sent.frameTo x.client.nodeId)) }
  | .client a => { g with
      reached := g.reached ++ ofPort f a.frame.toList
      delivered := g.delivered ++ ofPort f ((x.client.effects a).filterMap Effect.delivered) }

/-- The seed and a client with the traffic of a port. -/
def Link.stepCounting (f : String) : Link × Traffic → Link.Action V → Option (Link × Traffic) :=
  watch Link.step (Traffic.note f)

/-- What arrives from the source is a frame of the stream, routed to the client or sent there by the
seed, while there is a buffer for the source or as the first one. -/
def Stream.Arrives (σ : Stream) (p : Link × Traffic) : Link.Action V → Prop
  | .seed a => ∀ msg ∈ a.frame, msg.fromPort = σ.fromPort →
      1 ≤ msg.seq ∧ msg = σ.frame msg.seq ∧
        truthy (p.1.seed.portNodes.lookup σ.toPort) = some p.1.client.nodeId ∧
        (p.2.arrived = [] ∨ σ.fromPort ∈ p.1.seed.portSequences)
  | .client a => ∀ msg ∈ a.frame, msg.fromPort = σ.fromPort →
      msg ∈ p.2.forwarded ∧ (p.2.reached = [] ∨ σ.fromPort ∈ p.1.client.inboundPortSequences)

instance (σ : Stream) (p : Link × Traffic) (a : Link.Action V) : Decidable (σ.Arrives p a) := by
  unfold Stream.Arrives
  split <;> infer_instance

variable {σ : Stream}

/-- At both hops the frames were handed on in order and without a gap. -/
structure Stream.InOrder (σ : Stream) (p : Link × Traffic) : Prop where
  seedFrames : OwnFrames p.1.seed.portSequences
  clientFrames : OwnFrames p.1.client.inboundPortSequences
  seedHop : Hop σ.frame (numbers p.2.arrived) p.2.forwarded
    (p.1.seed.portSequences.lookup σ.fromPort)
  clientHop : Hop σ.frame (numbers p.2.reached) p.2.delivered
    (p.1.client.inboundPortSequences.lookup σ.fromPort)

lemma Stream.inOrder_start (σ : Stream) (seedId nodeId : String) :
    σ.InOrder (.start seedId nodeId, .empty) where
  seedFrames := fun x b hb => absurd hb (by simp [Link.start, SeedServer.start])
  clientFrames := fun x b hb => absurd hb (by simp [Link.start, start])
  seedHop := by
    have hempty : numbers [] = ∅ := by simp [numbers]
    simp only [Traffic.empty, hempty]
    exact hop_start σ.frame
  clientHop := by
    have hempty : numbers [] = ∅ := by simp [numbers]
    simp only [Traffic.empty, hempty]
    exact hop_start σ.frame

lemma exists_of_mem_handed {arrived : Set ℕ} {buffer : Option PortSequenceState} {y : PortMessage}
    (h : Hop σ.frame arrived handed buffer) (hy : y ∈ handed) : 1 ≤ y.seq ∧ y = σ.frame y.seq := by
  obtain ⟨k, -, rfl, -⟩ := h
  obtain ⟨i, hi, rfl⟩ := mem_map.mp hy
  exact ⟨(mem_range'_1.mp hi).1, rfl⟩

lemma Stream.InOrder.step {p q : Link × Traffic} {a : Link.Action V} (h : σ.InOrder p)
    (hok : σ.Arrives p a) (hstep : Link.stepCounting σ.fromPort p a = some q) : σ.InOrder q := by
  obtain ⟨hnext, hnote⟩ := watch_eq_some.mp hstep
  obtain ⟨⟨s', c'⟩, g'⟩ := q
  obtain rfl : g' = Traffic.note σ.fromPort p.2 p.1 a ⟨s', c'⟩ := hnote
  cases a with
  | seed a =>
    obtain ⟨t, ht, heq⟩ := map_eq_some_iff.mp hnext
    cases heq
    obtain ⟨⟨t, out⟩, hreact, rfl⟩ := map_eq_some_iff.mp ht
    have hsends : p.1.seed.sends a = out := by rw [SeedServer.sends, hreact]; rfl
    obtain ⟨hsub, hout⟩ := SeedServer.react_frames hreact
    obtain ⟨hown, hready⟩ := h.seedFrames.receive a.frame
    have hhop := Stream.hop h.seedHop h.seedFrames fun x hx hfrom =>
      let hx := hok x hx hfrom
      ⟨hx.1, hx.2.1, hx.2.2.2⟩
    -- Every frame of the stream whose turn it is is routed to the client.
    have hforwarded : ofPort σ.fromPort (out.filterMap (Sent.frameTo p.1.client.nodeId)) =
        ofPort σ.fromPort (receive p.1.seed.portSequences a.frame).2 := by
      rw [hout, ofPort, ofPort, List.filter_filter]
      refine filter_congr fun y hy => ?_
      by_cases hfrom : y.fromPort = σ.fromPort
      · obtain ⟨x, hx, hyx⟩ := hready y hy
        obtain ⟨-, -, hroute, -⟩ := hok x hx (hyx.symm.trans hfrom)
        have hmem : y ∈ p.2.forwarded ++
            ofPort σ.fromPort (receive p.1.seed.portSequences a.frame).2 :=
          mem_append_right _ (mem_filter.mpr ⟨hy, by simpa using hfrom⟩)
        have hto : y.toPort = σ.toPort := by
          rw [(exists_of_mem_handed hhop hmem).2]
          rfl
        rw [← hto] at hroute
        simp [hfrom, hroute]
      · simp [hfrom]
    refine ⟨hown.mono hsub, h.clientFrames, ?_, h.clientHop⟩
    simp only [Traffic.note, hsends, hforwarded]
    exact hhop.weaken fun b hb => hsub _ b hb
  | client a =>
    obtain ⟨d, hd, heq⟩ := map_eq_some_iff.mp hnext
    cases heq
    obtain ⟨⟨d, out⟩, hreact, rfl⟩ := map_eq_some_iff.mp hd
    have heffects : p.1.client.effects a = out := by rw [effects, hreact]; rfl
    obtain ⟨hsub, hout⟩ := react_frames hreact
    obtain ⟨hown, -⟩ := h.clientFrames.receive a.frame
    have hhop := Stream.hop h.clientHop h.clientFrames fun x hx hfrom => by
      obtain ⟨hmem, hlive⟩ := hok x hx hfrom
      obtain ⟨hpos, hframe⟩ := exists_of_mem_handed h.seedHop hmem
      exact ⟨hpos, hframe, hlive⟩
    refine ⟨h.seedFrames, hown.mono hsub, h.seedHop, ?_⟩
    simp only [Traffic.note, heffects, hout]
    exact hhop.weaken fun b hb => hsub _ b hb

/-- Whatever the order in which frames arrive, and however often: as long as they arrive while the
buffers of their source are there, the seed and the client have handed on the frames from the first
one on, in order, as far as they have arrived there without a gap. -/
theorem frames_in_order {seedId nodeId : String} {x : Link} {g : Traffic}
    (h : Run (Link.stepCounting σ.fromPort) (Stream.Arrives (V := V) σ)
      (Link.start seedId nodeId, .empty) (x, g)) :
    (∃ k, Gapless (numbers g.arrived) k ∧ g.forwarded = (range' 1 k).map σ.frame) ∧
      ∃ k, Gapless (numbers g.reached) k ∧ g.delivered = (range' 1 k).map σ.frame := by
  have hinv : σ.InOrder (x, g) :=
    h.invariant (fun p a q hp hok hstep => hp.step hok hstep) (σ.inOrder_start seedId nodeId)
  obtain ⟨j, hj, hforwarded, -⟩ := hinv.seedHop
  obtain ⟨k, hk, hdelivered, -⟩ := hinv.clientHop
  exact ⟨⟨j, hj, hforwarded⟩, k, hk, hdelivered⟩

/-- A stream of empty frames from a port of `a` to a realm of `b`. -/
def toRealm : Stream := ⟨"a/p", "b/0", fun _ => [], fun _ => none⟩

/-- The two nodes join, and two realms are spawned on `b` from the port of `a`. -/
def siblings : List (Link.Action Unit) :=
  [.seed (.handle 0 "a" (.hello "a" ⟨0, 0⟩)), .seed (.handle 0 "b" (.hello "b" ⟨0, 0⟩)),
    .seed (.handle 1 "a" (.spawn "a-0" "a/p" ⟨"entry", "root", [], none⟩)),
    .client (.handle none (.spawn "a-0" "a/p" ⟨"entry", "root", [], none⟩)),
    .seed (.handle 2 "b" (.spawnAck "a-0" "b/0" true none)),
    .seed (.handle 3 "a" (.spawn "a-1" "a/p" ⟨"entry", "root", [], none⟩)),
    .client (.handle none (.spawn "a-1" "a/p" ⟨"entry", "root", [], none⟩)),
    .seed (.handle 4 "b" (.spawnAck "a-1" "b/1" true none))]

def toSeed (i : ℕ) : Link.Action Unit := .seed (.handle 5 "a" (.portMsg (toRealm.frame i)))

def toClient (i : ℕ) : Link.Action Unit := .client (.handle none (.portMsg (toRealm.frame i)))

/-- Two frames that change places on both ways and arrive twice are handed on in order. -/
theorem swapped_frames_in_order : ∃ (x : Link) (g : Traffic),
    Run (Link.stepCounting toRealm.fromPort) (Stream.Arrives (V := Unit) toRealm)
      (Link.start "seed" "b", .empty) (x, g) ∧
    g.arrived.map (·.seq) = [2, 1, 1] ∧ g.reached.map (·.seq) = [2, 2, 1] ∧
    g.delivered.map (·.seq) = [1, 2] ∧
    ∃ k, Gapless (numbers g.reached) k ∧ g.delivered = (range' 1 k).map toRealm.frame := by
  have hp : (exec (restrict (Link.stepCounting toRealm.fromPort) (Stream.Arrives toRealm))
      (Link.start "seed" "b", .empty)
      (siblings ++ [toSeed 2, toSeed 1, toSeed 1, toClient 2, toClient 2, toClient 1])).bind
        (fun p => some (p.2.arrived.map (·.seq), p.2.reached.map (·.seq),
          p.2.delivered.map (·.seq))) = some ([2, 1, 1], [2, 2, 1], [1, 2]) := by decide +kernel
  obtain ⟨⟨x, g⟩, -, hrun, hp⟩ := Run.exists_of_exec hp
  simp only [some.injEq, Prod.mk.injEq] at hp
  obtain ⟨harrived, hreached, hdelivered⟩ := hp
  exact ⟨x, g, hrun, harrived, hreached, hdelivered, (frames_in_order hrun).2⟩

/-- Another realm under the source ends, and the second frame is not handed on. -/
theorem sibling_stops_stream :
    (exec (Link.stepCounting toRealm.fromPort) (Link.start "seed" "b", .empty)
      (siblings ++ [toSeed 1, toClient 1, .client (.ended "b/1" [] none), toSeed 2,
        toClient 2])).map (fun p => (p.2.reached.map (·.seq), p.2.delivered.map (·.seq),
          p.1.seed.registry.getNodeId "b/0", p.1.client.relays.keys)) =
      some ([1, 2], [1], some "b", ["b/0"]) := by
  decide +kernel

end Fino.Cluster
