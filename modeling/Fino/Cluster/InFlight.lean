import Fino.Cluster.Network

/-!
# What is on its way

In a careful step of the network (`Network.Move`) the seed takes an input, a client takes one, or a
node crashes. So identifiers are made once (`Named`), messages come from members and go to running
nodes (`Connected`), and every spawn has at most one `SPAWN` or `SPAWN_ACK` on its way; a `SPAWN` to
a node is pending there (`Tracked`).
-/

namespace Fino.Cluster

open Lib List Option ClusterClient AList Lib.Forest ClusterMessage SeedServer SeedServer.Input
open Workflow (Time)

variable {V : Type}

def ClusterMessage.ackId : ClusterMessage V → Option String
  | .spawnAck spawnReqId .. => some spawnReqId
  | _ => none

/-- The spawn that the message asks for or acknowledges. -/
def ClusterMessage.requestId (msg : ClusterMessage V) : Option String := msg.spawnId.or msg.ackId

def ClusterMessage.isFromClient : ClusterMessage V → Bool
  | .spawn .. | .spawnAck .. | .realmExit .. | .portMsg .. | .heartbeat .. => true
  | _ => false

variable {msg : ClusterMessage V} {r : String}

lemma ClusterMessage.requestId_eq_some :
    msg.requestId = some r ↔ msg.spawnId = some r ∨ msg.ackId = some r := by
  cases msg <;> simp [requestId, spawnId, ackId]

lemma ClusterMessage.requestId_of_isRoutine (h : msg.isRoutine) :
    msg.isFromClient ∧ msg.requestId = none := by
  cases msg <;> first | exact absurd h Bool.false_ne_true | exact ⟨rfl, rfl⟩

/-! ## The seed -/

variable {m : String × ClusterMessage V} {e : RealmExitMessage}

namespace SeedServer

variable {s t : SeedServer} {g : History V} {a : Input V} {out : List (Sent V)} {n r x : String}

def Input.taken : Input V → List (String × ClusterMessage V)
  | .handle _ sender msg => if msg.isFromClient then [(sender, msg)] else []
  | .expire .. => []

lemma Input.taken_of_isFromClient (now : Time) (sender : String)
    (h : msg.isFromClient) : (Input.handle now sender msg).taken = [(sender, msg)] ∧
      (Input.handle now sender msg).joins = none ∧ (Input.handle now sender msg).lost = none := by
  cases msg <;> first | exact absurd h Bool.false_ne_true | exact ⟨rfl, rfl, rfl⟩

lemma Input.eq_of_mem_taken (h : m ∈ a.taken) : ∃ now, a = .handle now m.1 m.2 := by
  cases a with
  | expire => cases h
  | handle now sender msg =>
    simp only [taken] at h
    split_ifs at h
    · obtain rfl := mem_singleton.mp h
      exact ⟨now, rfl⟩
    · cases h

lemma Input.joins_of_lost (h : a.lost = some n) : a.joins = none := by
  cases a with
  | expire => rfl
  | handle _ _ msg => cases msg <;> first | rfl | exact absurd h (by simp [Input.lost])

section

variable (h : Move s g a t out)

include h

lemma Move.mem_peers (hn : n ∈ s.peers ∨ a.joins = some n)
    (hlost : a.lost ≠ some n) : n ∈ t.peers := by
  cases h with
  | idle _ _ _ _ _ hpeers => exact (hpeers n).mpr hn
  | pass => exact hn.resolve_right (by simp [Input.joins])
  | settle hinfo hok =>
    have hs := hn.resolve_right (by simp [Input.joins])
    rw [settleSpawn]
    split_ifs <;> exact hs
  | exit _ _ _ hjoins _ _ _ _ hpeers =>
    rw [prune, forget_eq]
    exact hpeers ▸ hn.resolve_right (by simp [hjoins])
  | @lose _ n' _ _ _ hlost' =>
    have hne : n ≠ n' := fun heq => hlost (heq ▸ hlost')
    rw [prune, forget_eq]
    exact mem_erase.mpr ⟨hne, hn.resolve_right (by simp [Input.joins_of_lost hlost'])⟩

/-- A port is hosted where it was or by the sender, and not by a lost node. -/
lemma Move.hosts (hx : t.registry.getNodeId x = some n) :
    (s.registry.getNodeId x = some n ∨ ∃ msg, (n, msg) ∈ a.taken) ∧ a.lost ≠ some n := by
  cases h with
  | idle _ hlost hregistry =>
    rw [hregistry] at hx
    exact ⟨.inl hx, by simp [hlost]⟩
  | @pass _ n' _ p =>
    refine ⟨?_, by simp [Input.lost]⟩
    rw [admitSpawn, RealmRegistry.getNodeId_register] at hx
    split_ifs at hx
    · cases hx
      exact .inr ⟨_, mem_singleton.mpr rfl⟩
    · exact .inl hx
  | @settle _ _ _ _ ok =>
    refine ⟨?_, by simp [Input.lost]⟩
    cases ok with
    | false => exact .inl hx
    | true =>
      rw [settleSpawn, if_pos rfl, RealmRegistry.getNodeId_register] at hx
      split_ifs at hx
      · cases hx
        exact .inr ⟨_, mem_singleton.mpr rfl⟩
      · exact .inl hx
  | exit _ _ hlost _ _ hregistry =>
    rw [registry_prune, RealmRegistry.getNodeId_removeAll, hregistry] at hx
    split_ifs at hx
    exact ⟨.inl hx, by simp [hlost]⟩
  | @lose _ n' _ l _ hlost _ hl hmem =>
    rw [registry_prune, RealmRegistry.getNodeId_removeAll] at hx
    split_ifs at hx with hxl
    refine ⟨.inl hx, fun heq => ?_⟩
    -- A port of the lost node is removed.
    obtain rfl : n' = n := some.inj (hlost.symm.trans heq)
    exact hxl ((hmem x).mpr ⟨RealmRegistry.registered_iff_getNodeId.mpr ⟨_, hx⟩, x, hx, .refl⟩)

/-- A spawn stays pending until a message about it arrives or one of its nodes is lost. -/
lemma Move.lookup_pendingSpawns {info : PendingSpawn} (hr : s.pendingSpawns.lookup r = some info)
    (hnone : ∀ m ∈ a.taken, m.2.requestId ≠ some r)
    (hlost : ∀ n, a.lost = some n → PendingSpawn.Survives info n) :
    t.pendingSpawns.lookup r = some info := by
  cases h with
  | idle _ _ _ _ hpending => exact (hpending r).trans hr
  | @pass _ _ r' =>
    have hne : r ≠ r' := fun heq => hnone _ (mem_singleton.mpr rfl) (heq ▸ rfl)
    rw [admitSpawn, lookup_set, if_neg hne, hr]
  | @settle _ _ r' _ ok =>
    have hne : r ≠ r' := fun heq => hnone _ (mem_singleton.mpr rfl) (heq ▸ rfl)
    cases ok <;> exact (lookup_erase_ne hne).trans hr
  | exit _ _ _ _ _ _ _ hpending =>
    rw [prune, forget_eq]
    exact hpending ▸ hr
  | lose hlost' hpending =>
    rw [prune, forget_eq]
    exact (hpending r info).mpr ⟨hr, hlost _ hlost'⟩

lemma Move.of_spawn {m : Sent V} (hm : m ∈ out) (hr : m.message.spawnId = some r) :
    ∃ n p target config, a.taken = [(n, .spawn r p config)] ∧
      out = [.send target (.spawn r p config)] ∧
      t.pendingSpawns.lookup r = some ⟨n, p, target⟩ := by
  have hnone : m.message.spawnId ≠ none := by simp [hr]
  cases h with
  | idle _ _ _ _ _ _ _ hout | lose _ _ _ _ hout => exact absurd (hout m hm) hnone
  | @pass _ n r' p target config =>
    obtain rfl := mem_singleton.mp hm
    obtain rfl : r' = r := some.inj hr
    refine ⟨n, p, target, config, rfl, rfl, ?_⟩
    rw [admitSpawn, lookup_set, if_pos rfl]
  | settle =>
    obtain rfl := mem_singleton.mp hm
    exact absurd rfl hnone
  | exit routed _ _ _ _ _ _ _ _ _ _ _ hrouted =>
    rcases mem_append.mp hm with hm | hm
    · exact absurd (hrouted m hm) hnone
    rcases mem_append.mp hm with hm | hm
    · obtain ⟨q, -, heq⟩ := bind_eq_some_iff.mp (mem_toList.mp hm)
      obtain ⟨host, -, rfl⟩ := map_eq_some_iff.mp heq
      exact absurd rfl hnone
    · obtain ⟨ended, -, rfl⟩ := mem_map.mp hm
      exact absurd rfl hnone

lemma Move.pendingRealmExits {y : String} (hy : t.pendingRealmExits.lookup y = some e) :
    s.pendingRealmExits.lookup y = some e ∨ a.exit = some e := by
  have hforget : ∀ (s' : SeedServer) l, (s'.prune l).pendingRealmExits.lookup y = some e →
      s'.pendingRealmExits.lookup y = some e := by
    intro s' l hl
    rw [prune, lookup_pendingRealmExits_forget] at hl
    split_ifs at hl
    exact hl
  cases h with
  | idle _ _ _ _ _ _ hexits => exact hexits y e hy
  | pass => exact .inl hy
  | @settle _ _ _ _ ok => cases ok <;> exact .inl hy
  | exit _ _ _ _ _ _ _ _ _ hexits => exact .inl (hexits y e (hforget _ _ hy))
  | lose =>
    have hs := hforget _ _ hy
    exact .inl hs

end

lemma Input.mem_taken_of_exit (h : a.exit = some e) : ∃ n, (n, .realmExit e) ∈ a.taken := by
  cases a with
  | expire => exact absurd h (by simp [Input.exit])
  | handle _ n msg =>
    cases msg with
    | realmExit e' =>
      obtain rfl : e' = e := some.inj h
      exact ⟨n, mem_singleton.mpr rfl⟩
    | _ => exact absurd h (by simp [Input.exit])

end SeedServer

/-! ## A client -/

namespace ClusterClient

variable {c d : ClusterClient} {a : Input V} {out : List (Effect V)} {x : String}

def Input.taken (n : String) : Input V → List (String × ClusterMessage V)
  | .handle _ msg => [(n, msg)]
  | _ => []

lemma Move.nodeId_eq (h : Move c a d out) :
    d.nodeId = c.nodeId ∧ c.localHandle ≤ d.localHandle := by
  cases h with
  | ask | make | refuse => exact ⟨rfl, Nat.le_succ _⟩
  | order => exact ⟨rfl, le_rfl⟩
  | finish _ _ _ _ _ hnode hhandle | other _ _ hnode hhandle => exact ⟨hnode, hhandle.ge⟩

/-- The ports of a relay stay, unless it was made for a spawn that has arrived. -/
lemma Move.ports_eq {e : String × String} (h : Move c a d out) (hx : d.ports x = some e) :
    c.ports x = some e ∨ ∃ r p config, a = .handle none (.spawn r p config) ∧
      x = childPortId c.nodeId c.localHandle ∧ e = (x, p) ∧ d.localHandle = c.localHandle + 1 ∧
      out = [.send seedName (.spawnAck r x true none)] := by
  cases h with
  | ask | refuse | order => exact .inl hx
  | @make r p config =>
    simp only [ports, lookup_set] at hx
    split_ifs at hx with hxc
    · cases hx
      exact .inr ⟨r, p, config, rfl, hxc, by rw [hxc], rfl, by rw [hxc]⟩
    · exact .inl hx
  | finish _ _ _ _ _ _ _ hrelays =>
    rw [hrelays] at hx
    split_ifs at hx
    exact .inl hx
  | other _ _ _ _ hrelays => exact .inl (hrelays x ▸ hx)

lemma mem_relays_iff : x ∈ c.relays ↔ ∃ y p, c.ports x = some (y, p) := by
  rw [← lookup_isSome, isSome_iff_exists]
  simp only [ports, map_eq_some_iff, Prod.mk.injEq]
  constructor
  · rintro ⟨relay, hrelay⟩
    exact ⟨_, _, relay, hrelay, rfl, rfl⟩
  · rintro ⟨y, p, relay, hrelay, -⟩
    exact ⟨relay, hrelay⟩

variable (h : Move c a d out)

include h

/-- A client's message about a spawn asks for one, or answers one that has arrived. -/
lemma Move.of_requestId (hmsg : msg ∈ out.filterMap Effect.message)
    (hr : msg.requestId = some r) :
    out.filterMap Effect.message = [msg] ∧
      ((∃ p config, a = .spawnRemote p config ∧ r = spawnReqId c.nodeId c.localHandle ∧
          msg = .spawn r p config ∧ d.localHandle = c.localHandle + 1) ∨
        ∃ failure p config, a = .handle failure (.spawn r p config) ∧ msg.spawnId = none) := by
  have hroutine : ∀ msg' : ClusterMessage V, msg'.isRoutine → msg ≠ msg' := by
    rintro msg' hmsg' rfl
    rw [(requestId_of_isRoutine hmsg').2] at hr
    simp at hr
  cases h with
  | @ask p config =>
    obtain rfl := mem_singleton.mp hmsg
    cases hr
    exact ⟨rfl, .inl ⟨p, config, rfl, rfl, rfl, rfl⟩⟩
  | @make r' p config =>
    obtain rfl := mem_singleton.mp hmsg
    cases hr
    exact ⟨rfl, .inr ⟨none, p, config, rfl, rfl⟩⟩
  | @refuse error r' p config =>
    obtain rfl := mem_singleton.mp hmsg
    cases hr
    exact ⟨rfl, .inr ⟨some error, p, config, rfl, rfl⟩⟩
  | order => cases hmsg
  | finish e frames _ _ _ _ _ _ hframes hout =>
    rw [hout] at hmsg
    rcases mem_append.mp hmsg with hmsg | hmsg
    · exact absurd rfl (hroutine msg (hframes msg hmsg))
    · obtain rfl := mem_singleton.mp hmsg
      exact absurd hr (by simp [requestId, spawnId,
        ackId])
  | other _ _ _ _ _ hout => exact absurd rfl (hroutine msg (hout msg hmsg))

lemma Move.of_realmExit (he : .realmExit e ∈ out.filterMap Effect.message) :
    e.realmId ∈ c.relays ∧ e.realmId ∉ d.relays := by
  have hroutine : ¬ (realmExit e : ClusterMessage V).isRoutine := Bool.false_ne_true
  cases h with
  | ask | make | refuse => exact absurd he (by simp [Effect.message])
  | order => cases he
  | finish e' frames _ _ hx _ _ hrelays hframes hout =>
    rw [hout] at he
    rcases mem_append.mp he with he | he
    · exact absurd (hframes _ he) hroutine
    · cases mem_singleton.mp he
      refine ⟨hx, fun hd => ?_⟩
      obtain ⟨y, p, hp⟩ := mem_relays_iff.mp hd
      rw [hrelays, if_pos rfl] at hp
      simp at hp
  | other _ _ _ _ _ hout => exact absurd (hout _ he) hroutine

lemma Move.isFromClient (hmsg : msg ∈ out.filterMap Effect.message) : msg.isFromClient := by
  cases h with
  | ask | make | refuse =>
    obtain rfl := mem_singleton.mp hmsg
    rfl
  | order => cases hmsg
  | finish e frames _ _ _ _ _ _ hframes hout =>
    rw [hout] at hmsg
    rcases mem_append.mp hmsg with hmsg | hmsg
    · exact (requestId_of_isRoutine (hframes msg hmsg)).1
    · obtain rfl := mem_singleton.mp hmsg
      rfl
  | other _ _ _ _ _ hout => exact (requestId_of_isRoutine (hout msg hmsg)).1

end ClusterClient

namespace Network

variable {w w' : Network V} {g g' : Records V} {n r x : String}

variable {out : List (Sent V)} {clients : OrderedMap String ClusterClient}

lemma mem_route (h : m ∈ route clients out) : m.1 ∈ clients ∧ ∃ m' ∈ out, m'.message = m.2 := by
  obtain ⟨m', hm', hm⟩ := mem_flatMap.mp h
  cases m' with
  | send n msg =>
    simp only at hm
    split_ifs at hm with hn
    · obtain rfl := mem_singleton.mp hm
      exact ⟨hn, _, hm', rfl⟩
    · cases hm
  | broadcastExcept n msg =>
    obtain ⟨k, hk, rfl⟩ := mem_map.mp hm
    exact ⟨mem_keys.mp (mem_filter.mp hk).1, _, hm', rfl⟩

lemma mem_route_of_send (hn : n ∈ clients) (h : .send n msg ∈ out) :
    (n, msg) ∈ route clients out := by
  refine mem_flatMap.mpr ⟨_, h, ?_⟩
  simp [hn]

/-- What a step of the network can do, with what the records say of it afterwards. -/
inductive Move (w : Network V) (g : Records V) : Network V → Records V → Prop
  /-- The seed takes an input. -/
  | seed {b : SeedServer.Input V} {t : SeedServer} {out : List (Sent V)}
      {clients : OrderedMap String ClusterClient} {toSeed : List (String × ClusterMessage V)}
      {joined : List String} (hmove : SeedServer.Move w.seed g.tree b t out)
      (hclients : ∀ n, clients.lookup n =
        if b.joins = some n then some (.start n) else w.clients.lookup n)
      (hjoined : ∀ n, n ∈ joined ↔ b.joins = some n ∨ n ∈ g.joined)
      (hjoins : ∀ n, b.joins = some n → n ∉ g.joined)
      (hlost : ∀ n, b.lost = some n →
        n ∉ w.clients ∧ (∀ m ∈ toSeed, m.1 ≠ n) ∧ w.Losable g n)
      (htaken : (b.taken ++ toSeed).Subperm w.toSeed)
      (hkept : ∀ m ∈ w.toSeed, m ∈ b.taken ++ toSeed ∨ b.lost = some m.1) :
      Move w g ⟨t, clients, toSeed, w.toNode ++ route clients out, w.terminating⟩
        ⟨joined, g.asked, g.made, SeedServer.note g.tree w.seed b w.seed⟩
  /-- A client takes an input. -/
  | client {n : String} {c d : ClusterClient} {a : ClusterClient.Input V} {out : List (Effect V)}
      {toNode : List (String × ClusterMessage V)} (hc : w.clients.lookup n = some c)
      (hreact : c.react a = some (d, out)) (hmove : ClusterClient.Move c a d out)
      (htaken : w.toNode.Perm (a.taken n ++ toNode)) :
      Move w g
        { w with
          clients := w.clients.set n d
          toSeed := w.toSeed ++ (out.filterMap Effect.message).map fun msg => (n, msg)
          toNode := toNode
          terminating := (w.terminating ++ (out.filterMap Effect.ordered).map
            fun x => (n, x)).filter fun t => t.1 ≠ n ∨ t.2 ∈ d.relays }
        { g with
          asked := (asks (c, a)).elim g.asked fun e => g.asked.set e.1 e.2
          made := (makes (c, a)).elim g.made fun e => g.made.set e.1 e.2 }
  /-- A node crashes. -/
  | crash (n : String) :
      Move w g
        { w with
          clients := w.clients.erase n
          toNode := w.toNode.filter (·.1 ≠ n)
          terminating := w.terminating.filter (·.1 ≠ n) } g

variable {c : ClusterClient} {a : ClusterClient.Input V} {e : String × String}

lemma asks_eq_some :
    asks (c, a) = some e ↔ (∃ p config, a = .spawnRemote p config) ∧
      e = (spawnReqId c.nodeId c.localHandle, c.nodeId) := by
  cases a <;> simp [asks, eq_comm]

lemma makes_eq_some :
    makes (c, a) = some e ↔ ∃ r p config, a = .handle none (.spawn r p config) ∧
      e = (childPortId c.nodeId c.localHandle, r) := by
  constructor
  · intro h
    unfold makes at h
    split at h
    · next heq =>
      obtain ⟨rfl, rfl⟩ := Prod.mk.inj heq
      exact ⟨_, _, _, rfl, (some.inj h).symm⟩
    · simp at h
  · rintro ⟨r, p, config, rfl, rfl⟩
    rfl

variable {d : ClusterClient} {q : String}

lemma Move.lookup_clients (hmove : Move w g w' g') (hd : w'.clients.lookup n = some d) :
    w.clients.lookup n = some d ∨ (d = .start n ∧ n ∈ g'.joined ∧ n ∉ g.joined) ∨
      ∃ (c : ClusterClient) (a : ClusterClient.Input V) (out : List (Effect V)),
        w.clients.lookup n = some c ∧ ClusterClient.Move c a d out := by
  cases hmove with
  | seed hmove hclients hjoined hjoins =>
    rw [hclients] at hd
    split_ifs at hd with hjoin
    · exact .inr (.inl ⟨(some.inj hd).symm, (hjoined n).mpr (.inl hjoin), hjoins n hjoin⟩)
    · exact .inl hd
  | client hc _ hmove =>
    rw [lookup_set] at hd
    split_ifs at hd with heq
    · cases hd
      exact .inr (.inr ⟨_, _, _, heq ▸ hc, hmove⟩)
    · exact .inl hd
  | crash =>
    rw [lookup_erase_eq_ite] at hd
    split_ifs at hd
    exact .inl hd

lemma Move.mem_joined (hmove : Move w g w' g') (hn : n ∈ g.joined) : n ∈ g'.joined := by
  cases hmove with
  | seed _ _ hjoined => exact (hjoined n).mpr (.inr hn)
  | client | crash => exact hn

/-- A client of the node `n` has made the identifiers with the number `k`. -/
def Used (w : Network V) (g : Records V) (n : String) (k : ℕ) : Prop :=
  n ∈ g.joined ∧ ∀ c, w.clients.lookup n = some c → k < c.localHandle

/-- Clients have the names of their nodes, and identifiers are made by the node that asked and the
node that runs. -/
structure Named (w : Network V) (g : Records V) : Prop where
  clients : ∀ n c, w.clients.lookup n = some c → c.nodeId = n ∧ n ∈ g.joined
  asked : ∀ r q, g.asked.lookup r = some q →
    ∃ k, r = spawnReqId q k ∧ w.Used g q k
  relays : ∀ n c x y p, w.clients.lookup n = some c → c.ports x = some (y, p) →
    y = x ∧ ∃ k, x = childPortId n k ∧ k < c.localHandle

lemma Used.move {k : ℕ} (h : w.Used g n k) (hmove : Move w g w' g') : w'.Used g' n k := by
  refine ⟨hmove.mem_joined h.1, fun d hd => ?_⟩
  rcases hmove.lookup_clients hd with hd | ⟨-, -, hnew⟩ | ⟨c, a, out, hc, hclient⟩
  · exact h.2 d hd
  · exact absurd h.1 hnew
  · exact (h.2 c hc).trans_le hclient.nodeId_eq.2

lemma Named.spawnReqId_not_mem_asked (h : Named w g) (hc : w.clients.lookup n = some c) :
    spawnReqId c.nodeId c.localHandle ∉ g.asked := by
  intro hmem
  obtain ⟨q, hq⟩ := isSome_iff_exists.mp (lookup_isSome.mpr hmem)
  obtain ⟨k, heq, -, hk⟩ := h.asked _ q hq
  obtain ⟨rfl, rfl⟩ := spawnReqId_inj heq
  rw [(h.clients n c hc).1] at hk
  exact lt_irrefl _ (hk c hc)

lemma Named.lookup_asked (h : Named w g) (hmove : Move w g w' g')
    (hr : g.asked.lookup r = some q) : g'.asked.lookup r = some q := by
  cases hmove with
  | seed | crash => exact hr
  | @client n c d a out _ hc =>
    cases hasks : asks (c, a) with
    | none => exact hr
    | some e =>
      -- A new spawn has a new identifier.
      obtain ⟨-, rfl⟩ := asks_eq_some.mp hasks
      have hne : r ≠ spawnReqId c.nodeId c.localHandle := by
        rintro rfl
        exact h.spawnReqId_not_mem_asked hc (lookup_isSome.mp (by rw [hr]; rfl))
      rw [elim_some, lookup_set, if_neg hne, hr]

lemma Move.lookup_asked (hmove : Move w g w' g')
    (hr : g'.asked.lookup r = some q) : g.asked.lookup r = some q ∨
      ∃ n c d, w.clients.lookup n = some c ∧ w'.clients.lookup n = some d ∧
        r = spawnReqId c.nodeId c.localHandle ∧ q = c.nodeId ∧
        d.localHandle = c.localHandle + 1 := by
  cases hmove with
  | seed | crash => exact .inl hr
  | @client n c d a out _ hc hreact =>
    cases hasks : asks (c, a) with
    | none =>
      rw [hasks] at hr
      exact .inl hr
    | some e =>
      obtain ⟨⟨p, config, rfl⟩, rfl⟩ := asks_eq_some.mp hasks
      rw [hasks, elim_some, lookup_set] at hr
      split_ifs at hr with heq
      · cases hreact
        refine .inr ⟨n, c, (c.spawnRemote p config).1, hc, ?_, heq, (some.inj hr).symm, rfl⟩
        rw [lookup_set, if_pos rfl]
        rfl
      · exact .inl hr

lemma Named.move (h : Named w g) (hmove : Move w g w' g') : Named w' g' where
  clients := by
    intro n d hd
    rcases hmove.lookup_clients hd with hd | ⟨rfl, hjoined, -⟩ | ⟨c, a, out, hc, hclient⟩
    · exact ⟨(h.clients n d hd).1, hmove.mem_joined (h.clients n d hd).2⟩
    · exact ⟨rfl, hjoined⟩
    · obtain ⟨hname, hjoined⟩ := h.clients n c hc
      exact ⟨hclient.nodeId_eq.1.trans hname, hmove.mem_joined hjoined⟩
  asked := by
    intro r q hr
    rcases hmove.lookup_asked hr with hr | ⟨n, c, d, hc, hd, rfl, rfl, hhandle⟩
    · obtain ⟨k, hk, hused⟩ := h.asked r q hr
      exact ⟨k, hk, hused.move hmove⟩
    · obtain ⟨hname, hjoined⟩ := h.clients n c hc
      refine ⟨c.localHandle, rfl, hname ▸ hmove.mem_joined hjoined, fun d' hd' => ?_⟩
      rw [hname, hd, some.injEq] at hd'
      rw [← hd', hhandle]
      exact Nat.lt_succ_self _
  relays := by
    intro n d x y p hd hx
    rcases hmove.lookup_clients hd with hd | ⟨rfl, -, -⟩ | ⟨c, a, out, hc, hclient⟩
    · exact h.relays n d x y p hd hx
    · exact absurd hx (by simp [ports, ClusterClient.start])
    · rcases hclient.ports_eq hx with hx | ⟨r, p', config, -, hid, he, hhandle, -⟩
      · obtain ⟨hy, k, hk, hlt⟩ := h.relays n c x y p hc hx
        exact ⟨hy, k, hk, hlt.trans_le hclient.nodeId_eq.2⟩
      · rw [(h.clients n c hc).1] at hid
        exact ⟨(Prod.mk.inj he).1, c.localHandle, hid, hhandle ▸ Nat.lt_succ_self _⟩

/-- Nodes that host, run or send are members; clients send what goes to the seed, and what goes to a
node finds it running. -/
structure Connected (w : Network V) : Prop where
  hosts : ∀ x n, w.seed.registry.getNodeId x = some n → n ∈ w.seed.peers
  members : ∀ n, n ∈ w.clients → n ∈ w.seed.peers
  senders : ∀ m ∈ w.toSeed, m.1 ∈ w.seed.peers
  kinds : ∀ m ∈ w.toSeed, m.2.isFromClient
  receivers : ∀ m ∈ w.toNode, m.1 ∈ w.clients

lemma Connected.move (h : Connected w) (hmove : Move w g w' g') : Connected w' := by
  cases hmove with
  | @seed b t out clients toSeed _ hmove hclients _ _ hlost htaken =>
    have hmem : ∀ m ∈ b.taken ++ toSeed, m.1 ∈ w.seed.peers :=
      fun m hm => h.senders m (htaken.subset hm)
    have hrunning : ∀ n, n ∈ clients ↔ b.joins = some n ∨ n ∈ w.clients := by
      intro n
      rw [← lookup_isSome, hclients, ← lookup_isSome]
      split_ifs with hjoin <;> simp [hjoin]
    refine ⟨fun x n hx => ?_, fun n hn => ?_, fun m hm => ?_, fun m hm => ?_, fun m hm => ?_⟩
    · obtain ⟨hs | ⟨msg, hmsg⟩, hne⟩ := hmove.hosts hx
      · exact hmove.mem_peers (.inl (h.hosts x n hs)) hne
      · exact hmove.mem_peers (.inl (hmem _ (mem_append_left _ hmsg))) hne
    · rcases (hrunning n).mp hn with hjoin | hn
      · refine hmove.mem_peers (.inr hjoin) fun hn => ?_
        rw [joins_of_lost hn] at hjoin
        simp at hjoin
      · exact hmove.mem_peers (.inl (h.members n hn)) fun hl => (hlost n hl).1 hn
    · exact hmove.mem_peers (.inl (hmem m (mem_append_right _ hm)))
        fun hl => (hlost m.1 hl).2.1 m hm rfl
    · exact h.kinds m (htaken.subset (mem_append_right _ hm))
    · rcases mem_append.mp hm with hm | hm
      · exact (hrunning m.1).mpr (.inr (h.receivers m hm))
      · exact (mem_route hm).1
  | @client n c d a out toNode hc _ hmove htaken =>
    have hn : n ∈ w.clients := lookup_isSome.mp (by rw [hc]; rfl)
    refine ⟨h.hosts, fun m hm => ?_, fun m hm => ?_, fun m hm => ?_, fun m hm => ?_⟩
    · rcases mem_set.mp hm with rfl | hm
      · exact h.members m hn
      · exact h.members m hm
    · rcases mem_append.mp hm with hm | hm
      · exact h.senders m hm
      · obtain ⟨msg, -, rfl⟩ := mem_map.mp hm
        exact h.members n hn
    · rcases mem_append.mp hm with hm | hm
      · exact h.kinds m hm
      · obtain ⟨msg, hmsg, rfl⟩ := mem_map.mp hm
        exact hmove.isFromClient hmsg
    · exact mem_set.mpr (.inr (h.receivers m (htaken.mem_iff.mpr (mem_append_right _ hm))))
  | crash n =>
    refine ⟨h.hosts, fun m hm => h.members m (mem_erase.mp hm).2, h.senders, h.kinds,
      fun m hm => ?_⟩
    obtain ⟨hm, hne⟩ := mem_filter.mp hm
    exact mem_erase.mpr ⟨by simpa using hne, h.receivers m hm⟩

/-! ## Spawns -/

/-- The number of `SPAWN`s with the identifier, and `SPAWN_ACK`s for it to the seed, on their way.
-/
def concerning (w : Network V) (r : String) : ℕ :=
  w.toSeed.countP (fun m => m.2.requestId = some r) +
    w.toNode.countP (fun m => m.2.spawnId = some r)

/-- What is on its way was asked for, one message for each spawn; a `SPAWN` to a node is pending
there. -/
structure Tracked (w : Network V) (g : Records V) : Prop where
  requests : ∀ m ∈ w.toSeed, ∀ r, m.2.spawnId = some r → g.asked.lookup r = some m.1
  answers : ∀ m ∈ w.toSeed, ∀ r, m.2.ackId = some r → r ∈ g.asked
  orders : ∀ n r p config, (n, .spawn r p config) ∈ w.toNode →
    ∃ q, g.asked.lookup r = some q ∧ w.seed.pendingSpawns.lookup r = some ⟨q, p, n⟩
  single : ∀ r, w.concerning r ≤ 1

lemma Tracked.concerning_eq_zero (h : Tracked w g) (hr : r ∉ g.asked) : w.concerning r = 0 := by
  refine Nat.add_eq_zero_iff.mpr ⟨countP_eq_zero.mpr ?_, countP_eq_zero.mpr ?_⟩
  · intro m hm hrequest
    rcases requestId_eq_some.mp (of_decide_eq_true hrequest) with hspawn | hack
    · exact hr (lookup_isSome.mp (by rw [h.requests m hm r hspawn]; rfl))
    · exact hr (h.answers m hm r hack)
  · rintro ⟨n, msg⟩ hm horder
    cases msg with
    | spawn r' p config =>
      obtain rfl : r' = r := some.inj (of_decide_eq_true horder)
      obtain ⟨q, hq, -⟩ := h.orders n r' p config hm
      exact hr (lookup_isSome.mp (by rw [hq]; rfl))
    | _ => exact absurd (of_decide_eq_true horder) (by simp [spawnId])

variable {b : SeedServer.Input V} {t : SeedServer} {v : Network V} {p : String}

lemma countP_route_le {s : SeedServer} {tree : History V} (hmove : SeedServer.Move s tree b t out)
    (clients : OrderedMap String ClusterClient) (r : String) :
    (route clients out).countP (fun m => m.2.spawnId = some r) ≤
      b.taken.countP (fun m => m.2.requestId = some r) := by
  by_cases hnone : ∃ m ∈ out, m.message.spawnId = some r
  · obtain ⟨m, hm, hr⟩ := hnone
    obtain ⟨n, p, target, config, htaken, rfl, -⟩ := hmove.of_spawn hm hr
    have hone : b.taken.countP (fun m => m.2.requestId = some r) = 1 := by
      rw [htaken]
      simp [requestId, spawnId]
    rw [hone]
    refine countP_le_length.trans ?_
    simp only [route, flatMap_cons, flatMap_nil, append_nil]
    split_ifs <;> simp
  · have hzero : (route clients out).countP (fun m => m.2.spawnId = some r) = 0 := by
      refine countP_eq_zero.mpr fun m hm hr => ?_
      obtain ⟨-, m', hm', heq⟩ := mem_route hm
      exact hnone ⟨m', hm', heq ▸ of_decide_eq_true hr⟩
    rw [hzero]
    exact Nat.zero_le _

lemma countP_messages_le {out : List (Effect V)} (hmove : ClusterClient.Move c a d out)
    (hr : r ≠ spawnReqId c.nodeId c.localHandle) :
    ((out.filterMap Effect.message).map fun msg => (n, msg)).countP
        (fun m => m.2.requestId = some r) ≤
      (a.taken n).countP (fun m => m.2.spawnId = some r) := by
  rw [countP_map]
  by_cases hnone : ∃ msg ∈ out.filterMap Effect.message, msg.requestId = some r
  · obtain ⟨msg, hmsg, hrequest⟩ := hnone
    obtain ⟨hout, ⟨p, config, -, heq, -⟩ | ⟨failure, p, config, rfl, -⟩⟩ :=
      hmove.of_requestId hmsg hrequest
    · exact absurd heq hr
    · have hone : ((ClusterClient.Input.handle failure (.spawn r p config)).taken n).countP
          (fun m => m.2.spawnId = some r) = 1 := by
        simp [ClusterClient.Input.taken, spawnId]
      rw [hout, hone]
      exact countP_le_length
  · refine (countP_eq_zero.mpr fun msg hmsg hrequest => ?_).le.trans (Nat.zero_le _)
    exact hnone ⟨msg, hmsg, of_decide_eq_true hrequest⟩

lemma Tracked.concerning_le (h : Tracked w g) (hnamed : Named w g) (hmove : Move w g w' g')
    (r : String) : w'.concerning r ≤ 1 := by
  have hsingle := h.single r
  unfold concerning at hsingle ⊢
  cases hmove with
  | @seed b t out clients toSeed _ hmove _ _ _ _ htaken =>
    have hsub := htaken.countP_le (fun m => m.2.requestId = some r)
    have hroute := countP_route_le hmove clients r
    dsimp only
    rw [countP_append] at hsub ⊢
    omega
  | @client n c d a out toNode hc _ hmove htaken =>
    by_cases hr : r = spawnReqId c.nodeId c.localHandle
    · -- A spawn that is asked for now is the first message.
      have hzero := h.concerning_eq_zero (hr ▸ hnamed.spawnReqId_not_mem_asked hc)
      have hone : ((out.filterMap Effect.message).map fun msg => (n, msg)).countP
          (fun m => m.2.requestId = some r) ≤ 1 := by
        by_cases hnone : ∃ msg ∈ out.filterMap Effect.message, msg.requestId = some r
        · obtain ⟨msg, hmsg, hrequest⟩ := hnone
          rw [(hmove.of_requestId hmsg hrequest).1]
          exact countP_le_length
        · refine (countP_eq_zero.mpr fun m hm hrequest => ?_).le.trans (Nat.zero_le 1)
          obtain ⟨msg, hmsg, rfl⟩ := mem_map.mp hm
          exact hnone ⟨msg, hmsg, of_decide_eq_true hrequest⟩
      have hperm := htaken.countP_eq (fun m => m.2.spawnId = some r)
      unfold concerning at hzero
      dsimp only
      rw [countP_append] at hperm ⊢
      omega
    · have hnew := countP_messages_le (n := n) hmove hr
      have hperm := htaken.countP_eq (fun m => m.2.spawnId = some r)
      dsimp only
      rw [countP_append] at hperm ⊢
      omega
  | crash n =>
    have hfilter : (w.toNode.filter (·.1 ≠ n)).countP (fun m => m.2.spawnId = some r) ≤
        w.toNode.countP (fun m => m.2.spawnId = some r) := filter_sublist.countP_le
    dsimp only
    omega

lemma Tracked.not_mem_toNode {config : SerializedSpawnConfig V} (h : Tracked w g)
    (hm : m ∈ w.toSeed) (hr : m.2.requestId = some r) : (n, .spawn r p config) ∉ w.toNode := by
  intro horder
  have hsingle := h.single r
  have hseed : 0 < w.toSeed.countP (fun m => m.2.requestId = some r) :=
    countP_pos_iff.mpr ⟨m, hm, decide_eq_true hr⟩
  have hnode : 0 < w.toNode.countP (fun m => m.2.spawnId = some r) :=
    countP_pos_iff.mpr ⟨_, horder, decide_eq_true rfl⟩
  unfold concerning at hsingle
  omega

/-- A pending spawn with a running target stays pending if no message about it is taken. -/
lemma Move.seed_keeps {toSeed : List (String × ClusterMessage V)}
    (hmove : SeedServer.Move w.seed g.tree b t out)
    (hlost : ∀ n, b.lost = some n → n ∉ w.clients ∧ (∀ m ∈ toSeed, m.1 ≠ n) ∧ w.Losable g n)
    (hr : w.seed.pendingSpawns.lookup r = some ⟨q, p, n⟩) (hn : n ∈ w.clients)
    (hnone : ∀ m ∈ b.taken, m.2.requestId ≠ some r) :
    t.pendingSpawns.lookup r = some ⟨q, p, n⟩ := by
  refine hmove.lookup_pendingSpawns hr hnone fun n' hn' => ?_
  obtain ⟨hcrashed, -, hpending, -⟩ := hlost n' hn'
  refine ⟨hpending r _ hr, ?_⟩
  rintro rfl
  exact hcrashed hn

lemma Tracked.move (h : Tracked w g) (hnamed : Named w g) (hconnected : Connected w)
    (hmove : Move w g w' g') : Tracked w' g' := by
  have hsingle := h.concerning_le hnamed hmove
  have hasked := fun r q => hnamed.lookup_asked (r := r) (q := q) hmove
  have hmem : ∀ r, r ∈ g.asked → r ∈ g'.asked := by
    intro r hr
    obtain ⟨q, hq⟩ := isSome_iff_exists.mp (lookup_isSome.mpr hr)
    exact lookup_isSome.mp (by rw [hasked r q hq]; rfl)
  cases hmove with
  | @seed b t out clients toSeed _ hmove _ _ _ hlost htaken =>
    have hsub : ∀ m ∈ toSeed, m ∈ w.toSeed :=
      fun m hm => htaken.subset (mem_append_right _ hm)
    refine ⟨fun m hm => h.requests m (hsub m hm), fun m hm => h.answers m (hsub m hm),
      fun n r p config hm => ?_, hsingle⟩
    rcases mem_append.mp hm with hm | hm
    · obtain ⟨q, hq, hpending⟩ := h.orders n r p config hm
      refine ⟨q, hq, Move.seed_keeps hmove hlost hpending (hconnected.receivers _ hm) ?_⟩
      intro m hmb hr
      exact h.not_mem_toNode (htaken.subset (mem_append_left _ hmb)) hr hm
    · -- The seed has just forwarded the spawn.
      obtain ⟨-, m', hm', heq⟩ := mem_route hm
      obtain ⟨q, p', target, config', htaken', rfl, hpending⟩ :=
        hmove.of_spawn hm' (by rw [heq]; rfl)
      have hq : g.asked.lookup r = some q := by
        refine h.requests (q, .spawn r p' config') (htaken.subset ?_) r rfl
        rw [htaken']
        exact mem_cons_self
      simp only [route, flatMap_cons, flatMap_nil, append_nil] at hm
      split_ifs at hm
      · cases mem_singleton.mp hm
        exact ⟨q, hq, hpending⟩
      · cases hm
  | @client n c d a out toNode hc hreact hmove htaken =>
    refine ⟨fun m hm r hr => ?_, fun m hm r hr => ?_, fun n' r p config hm => ?_, hsingle⟩
    · rcases mem_append.mp hm with hm | hm
      · exact hasked r m.1 (h.requests m hm r hr)
      · obtain ⟨msg, hmsg, rfl⟩ := mem_map.mp hm
        obtain ⟨-, ⟨p, config, rfl, rfl, rfl, -⟩ | ⟨-, -, -, -, hnone⟩⟩ :=
          hmove.of_requestId hmsg (requestId_eq_some.mpr (.inl hr))
        · simp only [asks, elim_some, lookup_set, if_pos, (hnamed.clients n c hc).1]
        · rw [hnone] at hr
          simp at hr
    · rcases mem_append.mp hm with hm | hm
      · exact hmem r (h.answers m hm r hr)
      · obtain ⟨msg, hmsg, rfl⟩ := mem_map.mp hm
        obtain ⟨-, ⟨p, config, -, -, rfl, -⟩ | ⟨failure, p, config, rfl, -⟩⟩ :=
          hmove.of_requestId hmsg (requestId_eq_some.mpr (.inr hr))
        · exact absurd hr (by simp [ackId])
        · have horder : (n, .spawn r p config) ∈ w.toNode :=
            htaken.mem_iff.mpr (mem_append_left _ (mem_singleton.mpr rfl))
          obtain ⟨q, hq, -⟩ := h.orders n r p config horder
          exact hmem r (lookup_isSome.mp (by rw [hq]; rfl))
    · obtain ⟨q, hq, hpending⟩ :=
        h.orders n' r p config (htaken.mem_iff.mpr (mem_append_right _ hm))
      exact ⟨q, hasked r q hq, hpending⟩
  | crash n =>
    exact ⟨h.requests, h.answers, fun n' r p config hm =>
      h.orders n' r p config (mem_filter.mp hm).1, hsingle⟩

/-! ## Careful runs -/

lemma Move.of_seedStep {joined : List String} (hstep : v.seedStep b = some w')
    (howned : Owned (w.seed, g.tree)) (hok : Registers (w.seed, g.tree) b)
    (hseed : v.seed = w.seed) (hnode : v.toNode = w.toNode)
    (hterminating : v.terminating = w.terminating)
    (hclients : ∀ n, v.clients.lookup n =
      if b.joins = some n then some (.start n) else w.clients.lookup n)
    (hjoined : ∀ n, n ∈ joined ↔ b.joins = some n ∨ n ∈ g.joined)
    (hjoins : ∀ n, b.joins = some n → n ∉ g.joined)
    (hlost : ∀ n, b.lost = some n → n ∉ w.clients ∧ (∀ m ∈ v.toSeed, m.1 ≠ n) ∧ w.Losable g n)
    (htaken : (b.taken ++ v.toSeed).Subperm w.toSeed)
    (hkept : ∀ m ∈ w.toSeed, m ∈ b.taken ++ v.toSeed ∨ b.lost = some m.1) :
    Move w g w' ⟨joined, g.asked, g.made, SeedServer.note g.tree w.seed b w.seed⟩ := by
  obtain ⟨⟨t, out⟩, hreact, rfl⟩ := map_eq_some_iff.mp hstep
  rw [hseed] at hreact
  rw [hnode, hterminating]
  exact .seed (SeedServer.Move.of_react howned.sound hok hreact) hclients hjoined hjoins hlost
    htaken hkept

lemma Move.of_clientStep (hstep : v.clientStep n a = some w') (hnamed : Named w g)
    (hstop : ∀ written, a ≠ .stop written) (hseed : v.seed = w.seed)
    (hclients : v.clients = w.clients) (htoSeed : v.toSeed = w.toSeed)
    (hterminating : v.terminating = w.terminating) (hc : w.clients.lookup n = some c)
    (htaken : w.toNode.Perm (a.taken n ++ v.toNode)) :
    Move w g w' { g with
      asked := (asks (c, a)).elim g.asked fun e => g.asked.set e.1 e.2
      made := (makes (c, a)).elim g.made fun e => g.made.set e.1 e.2 } := by
  obtain ⟨c', hc', hstep⟩ := bind_eq_some_iff.mp hstep
  rw [hclients, hc, some.injEq] at hc'
  subst hc'
  obtain ⟨⟨d, out⟩, hreact, rfl⟩ := map_eq_some_iff.mp hstep
  have hkeyed : c.Keyed := by
    intro x relay hrelay
    exact (hnamed.relays n c x relay.childPortId relay.parentPortId hc
      (by rw [ports, hrelay]; rfl)).1
  rw [hseed, hclients, htoSeed, hterminating]
  exact .client hc hreact (.of_react hkeyed hstop hreact) htaken

/-- Every step of the network is one of the moves. -/
lemma Move.of_step {a : Action V} (howned : Owned (w.seed, g.tree))
    (hnamed : Named w g) (hconnected : Connected w) (hok : Careful (w, g) a)
    (hstep : stepRecording (w, g) a = some (w', g')) : Move w g w' g' := by
  obtain ⟨hnext, hnote⟩ := watch_eq_some.mp hstep
  obtain rfl : g' = note g w a w' := hnote
  obtain ⟨hregisters, hok⟩ := hok
  have hsame : ∀ (b : SeedServer.Input V), b.joins = none → ∀ n, w.clients.lookup n =
      if b.joins = some n then some (.start n) else w.clients.lookup n := by
    intro b hb n
    rw [hb, if_neg (by simp)]
  cases a with
  | join now n load =>
    simp only [step] at hnext
    split_ifs at hnext
    refine Move.of_seedStep hnext howned (hregisters _ rfl) rfl rfl rfl (fun n' => ?_)
      (fun n' => ?_) (fun n' hn' => ?_) (fun n' hn' => ?_) (.refl _) (fun m hm => .inl hm)
    · have hjoin : (.handle now n (.hello n load) : SeedServer.Input V).joins = some n' ↔ n' = n :=
        ⟨fun heq => (some.inj heq).symm, fun heq => congrArg some heq.symm⟩
      rw [lookup_set, if_congr hjoin rfl rfl]
      by_cases hn : n' = n
      · rw [if_pos hn, if_pos hn, hn]
      · rw [if_neg hn, if_neg hn]
    · simp [SeedServer.Input.joins, eq_comm]
    · obtain rfl : n = n' := some.inj hn'
      exact hok
    · exact absurd hn' (by simp [lost])
  | toSeed i now =>
    obtain ⟨m, hm, hnext⟩ := bind_eq_some_iff.mp hnext
    obtain ⟨hi, hget⟩ := List.getElem?_eq_some_iff.mp hm
    obtain ⟨htaken, hjoins, hlost⟩ := taken_of_isFromClient now m.1
      (hconnected.kinds m (mem_of_getElem? hm))
    have hinput : w.seedInput (.toSeed i now) = some (.handle now m.1 m.2) := by
      rw [seedInput, hm]
      rfl
    have hperm : (m :: w.toSeed.eraseIdx i).Perm w.toSeed := by
      rw [← hget]
      exact getElem_cons_eraseIdx_perm hi
    simp only [note, hinput, clientInput, bind_none, elim_none, elim_some]
    refine Move.of_seedStep hnext howned (hregisters _ hinput) rfl rfl rfl (hsame _ hjoins)
      (fun n => ?_) (fun n hn => ?_) (fun n hn => ?_) ?_ (fun m' hm' => ?_)
    · simp [hjoins]
    · exact absurd hn (by simp [hjoins])
    · exact absurd hn (by simp [hlost])
    · rw [htaken]
      exact hperm.subperm
    · rw [htaken]
      exact .inl (hperm.mem_iff.mpr hm')
  | peerDown now n =>
    simp only [step] at hnext
    split_ifs at hnext with hn
    refine Move.of_seedStep hnext howned (hregisters _ rfl) rfl rfl rfl (hsame _ rfl)
      (fun n' => ?_) (fun n' hn' => ?_) (fun n' hn' => ?_) filter_sublist.subperm
      (fun m hm => ?_)
    · simp [SeedServer.Input.joins]
    · exact absurd hn' (by simp [SeedServer.Input.joins])
    · obtain rfl : n = n' := some.inj hn'
      exact ⟨hn, fun m hm => by simpa using (mem_filter.mp hm).2, hok⟩
    · by_cases hmn : m.1 = n
      · exact .inr (congrArg some hmn.symm)
      · exact .inl (mem_filter.mpr ⟨hm, decide_eq_true hmn⟩)
  | expire now timeout n =>
    refine Move.of_seedStep hnext howned (hregisters _ rfl) rfl rfl rfl (hsame _ rfl)
      (fun n' => ?_) (fun n' hn' => ?_) (fun n' hn' => ?_) (.refl _) (fun m hm => .inl hm)
    · simp [SeedServer.Input.joins]
    · exact absurd hn' (by simp [SeedServer.Input.joins])
    · obtain rfl : n = n' := some.inj hn'
      exact hok
  | call n a =>
    simp only [step] at hnext
    split_ifs at hnext with hcall
    obtain ⟨c, hc, -⟩ := bind_eq_some_iff.mp hnext
    have hinput : w.clientInput (.call n a) = some (c, a) := by
      rw [clientInput, hc]
      rfl
    have htaken : a.taken n = [] := by
      cases a <;> first | rfl | exact absurd hcall Bool.false_ne_true
    simp only [note, hinput, seedInput, bind_some, elim_none]
    refine Move.of_clientStep hnext hnamed (fun written heq => ?_) rfl rfl rfl rfl hc ?_
    · rw [heq] at hcall
      exact Bool.false_ne_true hcall
    · rw [htaken]
      exact .refl _
  | toNode i failure =>
    obtain ⟨m, hm, hnext⟩ := bind_eq_some_iff.mp hnext
    obtain ⟨hi, hget⟩ := List.getElem?_eq_some_iff.mp hm
    obtain ⟨c, hc, -⟩ := bind_eq_some_iff.mp hnext
    have hinput : w.clientInput (.toNode i failure) = some (c, .handle failure m.2) := by
      rw [clientInput, hm, bind_some, hc]
      rfl
    simp only [note, hinput, seedInput, bind_some, elim_none]
    refine Move.of_clientStep hnext hnamed (by simp) rfl rfl rfl rfl hc ?_
    rw [← hget]
    exact (getElem_cons_eraseIdx_perm hi).symm
  | crash n =>
    simp only [step] at hnext
    split_ifs at hnext
    cases hnext
    exact .crash n

end Network

end Fino.Cluster
