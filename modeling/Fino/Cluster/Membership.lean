import Fino.Cluster.Consistency

/-!
# The members of the cluster

The seed takes spawn targets from `#peers` and sweeps `#lastSeen` for silent nodes. `Changes` says
what an action does to the two maps and what it announces.

`HEARTBEAT` and `PEER_DOWN` do not ask whether the sender is a member, so a heartbeat after the
expiry of a node has its loss announced twice (`expired_node_announced_twice`). If both come from
members, the maps have the same keys and each membership ends with one announcement
(`membership_consistent`).
-/

namespace Fino.Cluster

open Lib List Option AList
open Workflow (Time)

variable {V : Type}

namespace RealmRegistry

variable {reg reg' : RealmRegistry}

/-- No port of the registry has children. -/
def Childless (reg : RealmRegistry) : Prop := ∀ p, reg.getChildren p = []

variable (h : reg.Childless)

include h

lemma Childless.register (portId nodeId : String) :
    (reg.register portId none nodeId).Childless := by
  intro p
  rw [eq_nil_iff_forall_not_mem]
  intro c hc
  rcases mem_getChildren_register.mp hc with ⟨-, hc⟩ | ⟨hp, -⟩
  · rw [h p] at hc
    cases hc
  · exact absurd hp (by simp [truthy])

lemma Childless.remove {α : Type} {item : String → Option String → α} (depth : ℕ) (p : String)
    (acc : List α) :
    ∃ st, remove item (depth + 1) p (reg, acc) = some st ∧ st.1.Childless := by
  rw [RealmRegistry.remove]
  cases hp : reg.ports.lookup p with
  | none => exact ⟨_, rfl, h⟩
  | some e =>
    have hkeys : e.children.keys = [] := by
      have hchildren := h p
      rwa [getChildren, hp] at hchildren
    dsimp only
    rw [hkeys]
    refine ⟨_, rfl, fun q => ?_⟩
    rw [eq_nil_iff_forall_not_mem]
    intro c hc
    rw [mem_getChildren_detach, h q] at hc
    exact absurd hc.2.1 not_mem_nil

lemma Childless.nodeDown (n : String) : ∃ st, reg.nodeDown n = some st ∧ st.1.Childless := by
  rw [RealmRegistry.nodeDown]
  cases reg.byNode.lookup n with
  | none => exact ⟨_, rfl, h⟩
  | some hosted =>
    exact foldlM_ends (fun st p hst => hst.remove _ p st.2) hosted.keys h

end RealmRegistry

def Sent.announces (n : String) : Sent V → Bool
  | .send _ (.peerDown m) | .broadcastExcept _ (.peerDown m) => m = n
  | _ => false

def announcements (out : List (Sent V)) (n : String) : ℕ := out.countP (Sent.announces n)

namespace SeedServer

variable {s t : SeedServer} {out : List (Sent V)} {n : String}

/-! ## Actions -/

/-- What happens to the members: a message arrives, or there is a sweep for silent ones. -/
inductive Action (V : Type)
  | handle (now : Time) (sender : String) (msg : ClusterMessage V)
  | sweep (now timeout : Time)

def perform (s : SeedServer) : Action V → Option (SeedServer × List (Sent V))
  | .handle now sender msg => s.handle now sender msg
  | .sweep now timeout => s.checkHeartbeats now timeout

/-- A message that has to do with the members, or a sweep. -/
def Action.OfMembers : Action V → Prop
  | .handle _ _ (.hello ..) | .handle _ _ (.heartbeat _) | .handle _ _ (.peerDown _)
  | .handle _ _ (.spawn ..) | .sweep .. => True
  | _ => False

def Action.heard : Action V → Option String
  | .handle _ sender (.hello ..) | .handle _ sender (.heartbeat _) => some sender
  | _ => none

def Action.greeted : Action V → Option String
  | .handle _ sender (.hello ..) => some sender
  | _ => none

/-- The node is lost: by a `PEER_DOWN`, or because it is overdue. -/
def Loses (s : SeedServer) : Action V → String → Prop
  | .handle _ sender (.peerDown _), n => n = sender
  | .sweep now timeout, n => s.Overdue now timeout n
  | _, _ => False

instance (s : SeedServer) (a : Action V) (n : String) : Decidable (s.Loses a n) := by
  unfold Loses
  split <;> infer_instance

/-- A heartbeat and the loss of a connection are those of a member. -/
def FromMember (s : SeedServer) : Action V → Prop
  | .handle _ sender (.heartbeat _) | .handle _ sender (.peerDown _) => sender ∈ s.peers
  | _ => True

/-- What an action does to the members, and what is announced. -/
structure Changes (s : SeedServer) (a : Action V) (t : SeedServer) (out : List (Sent V)) :
    Prop where
  seen : ∀ n, n ∈ t.lastSeen ↔ a.heard = some n ∨ (n ∈ s.lastSeen ∧ ¬ s.Loses a n)
  peers : ∀ n, n ∈ t.peers ↔ a.greeted = some n ∨ (n ∈ s.peers ∧ ¬ s.Loses a n)
  announced : ∀ n, announcements out n = if s.Loses a n then 1 else 0

lemma announcements_of_loseNode (h : s.loseNode n = some (t, out)) (m : String) :
    announcements out m = if m = n then 1 else 0 := by
  obtain ⟨-, rest, rfl, hrest⟩ := loseNode_frame h
  have hzero : rest.countP (Sent.announces m) = 0 := by
    rw [countP_eq_zero]
    intro x hx
    have hnotice := hrest x hx
    cases x with
    | send k msg => cases msg <;> simp_all [Sent.announces, Sent.Notice]
    | broadcastExcept k msg => exact hnotice.elim
  rw [announcements, countP_cons, hzero, Sent.announces, Nat.zero_add]
  exact if_congr (by rw [decide_eq_true_eq, eq_comm]) rfl rfl

lemma foldlM_expire {now timeout : Time} {l : List String} (hnodup : l.Nodup)
    {acc : List (Sent V)} (h : l.foldlM (fun (st : SeedServer × List (Sent V)) n =>
      (st.1.react (.expire now timeout n)).map fun (s, out) => (s, st.2 ++ out)) (s, acc) =
        some (t, out)) :
    (∀ m, m ∈ t.lastSeen ↔ m ∈ s.lastSeen ∧ m ∉ l) ∧ (∀ m, m ∈ t.peers ↔ m ∈ s.peers ∧ m ∉ l) ∧
      ∀ m, announcements out m = announcements acc m + if m ∈ l then 1 else 0 := by
  induction l generalizing s acc with
  | nil =>
    cases h
    simp
  | cons n l ih =>
    obtain ⟨⟨u, sent⟩, hu, h⟩ := bind_eq_some_iff.mp h
    obtain ⟨⟨u, out'⟩, hreact, heq⟩ := map_eq_some_iff.mp hu
    cases heq
    simp only [react] at hreact
    split_ifs at hreact
    obtain ⟨-, hpeers, hseen⟩ := membership_of_loseNode hreact
    have hannounced := announcements_of_loseNode hreact
    obtain ⟨hn, hnodup⟩ := nodup_cons.mp hnodup
    obtain ⟨ihseen, ihpeers, ihannounced⟩ := ih hnodup h
    refine ⟨fun m => ?_, fun m => ?_, fun m => ?_⟩
    · rw [ihseen, hseen, mem_erase, mem_cons]
      tauto
    · rw [ihpeers, hpeers, mem_erase, mem_cons]
      tauto
    · have happend : announcements (acc ++ out') m = announcements acc m + announcements out' m :=
        countP_append
      rw [ihannounced, happend, hannounced, Nat.add_assoc]
      by_cases hm : m = n
      · simp [hm, hn]
      · simp [hm]

variable {a : Action V}

lemma Changes.of_perform (ha : a.OfMembers) (h : s.perform a = some (t, out)) :
    Changes s a t out := by
  cases a with
  | sweep now timeout =>
    simp only [perform, checkHeartbeats_eq] at h
    -- The list of the nodes that are overdue.
    have hmem : ∀ n, n ∈ (s.lastSeen.entries.filter fun e => timeout < now - e.2).map Sigma.fst ↔
        s.Overdue now timeout n := by
      intro n
      simp only [List.mem_map, List.mem_filter, decide_eq_true_eq, Overdue, mem_lookup_iff]
      constructor
      · rintro ⟨e, ⟨he, hlate⟩, rfl⟩
        exact ⟨e.2, he, hlate⟩
      · rintro ⟨ts, he, hlate⟩
        exact ⟨⟨n, ts⟩, ⟨he, hlate⟩, rfl⟩
    have hnodup : ((s.lastSeen.entries.filter fun e => timeout < now - e.2).map Sigma.fst).Nodup :=
      List.Nodup.sublist (List.filter_sublist.map Sigma.fst) s.lastSeen.nodupKeys
    obtain ⟨hseen, hpeers, hannounced⟩ := foldlM_expire hnodup h
    refine ⟨fun n => ?_, fun n => ?_, fun n => ?_⟩
    · simp [hseen, hmem, Action.heard, Loses]
    · simp [hpeers, hmem, Action.greeted, Loses]
    · rw [hannounced, announcements, countP_nil, Nat.zero_add]
      exact if_congr (hmem n) rfl rfl
  | handle now sender msg =>
    cases msg with
    | hello nodeId load =>
      cases h
      constructor <;>
        simp [Action.heard, Action.greeted, Loses, announcements, Sent.announces, @eq_comm _ sender]
    | heartbeat ts =>
      cases h
      constructor <;>
        simp [Action.heard, Action.greeted, Loses, announcements, @eq_comm _ sender]
    | peerDown nodeId =>
      obtain ⟨-, hpeers, hseen⟩ := membership_of_loseNode h
      refine ⟨fun n => ?_, fun n => ?_, fun n => ?_⟩
      · rw [hseen, mem_erase]
        simp [Action.heard, Loses, and_comm]
      · rw [hpeers, mem_erase]
        simp [Action.greeted, Loses, and_comm]
      · exact announcements_of_loseNode h n
    | spawn spawnReqId parentPortId config =>
      simp only [perform, handle] at h
      split at h <;> cases h <;> constructor <;>
        simp [Action.heard, Action.greeted, Loses, announcements, Sent.announces, admitSpawn]
    | welcome | peerUp | spawnAck | realmExit | terminate | portMsg => exact ha.elim

lemma perform_ends (ha : a.OfMembers) (h : s.registry.Childless) :
    ∃ t out, s.perform a = some (t, out) ∧ t.registry.Childless := by
  have hlose : ∀ (s : SeedServer) (n : String), s.registry.Childless →
      ∃ t out, s.loseNode (V := V) n = some (t, out) ∧ t.registry.Childless := by
    intro s n hs
    have hregistry : ((s.withoutPeer n).dropSpawns (V := V) n).1.registry = s.registry := by
      obtain ⟨pending, hpending, -, -⟩ := dropSpawns_spec (s.withoutPeer n) n
      rw [hpending]
      rfl
    obtain ⟨st, hst, hchildless⟩ := hs.nodeDown n
    have hends : (s.loseNode (V := V) n).isSome := by
      rw [loseNode, isSome_map, handleNodeDown, isSome_map, hregistry, hst]
      rfl
    obtain ⟨⟨t, out⟩, ht⟩ := isSome_iff_exists.mp hends
    refine ⟨t, out, ht, ?_⟩
    obtain ⟨removed, hdown⟩ := registry_of_loseNode ht
    rw [hst, Option.some.injEq] at hdown
    rwa [hdown] at hchildless
  cases a with
  | sweep now timeout =>
    obtain ⟨st, hst, hchildless⟩ := foldlM_ends
      (I := fun st : SeedServer × List (Sent V) => st.1.registry.Childless)
      (f := fun st entry => if timeout < now - entry.2 then
        (st.1.loseNode entry.1).map fun (s, out) => (s, st.2 ++ out) else some st)
      (fun st entry hst => by
        split_ifs
        · obtain ⟨t, out, ht, hchildless⟩ := hlose st.1 entry.1 hst
          exact ⟨_, by rw [ht]; rfl, hchildless⟩
        · exact ⟨st, rfl, hst⟩) s.lastSeen.entries (s := (s, [])) h
    exact ⟨st.1, st.2, hst, hchildless⟩
  | handle now sender msg =>
    cases msg with
    | hello | heartbeat => exact ⟨_, _, rfl, h⟩
    | peerDown => exact hlose s sender h
    | spawn spawnReqId parentPortId config =>
      simp only [perform, handle]
      cases s.selectTarget sender with
      | none => exact ⟨_, _, rfl, h⟩
      | some target => exact ⟨_, _, rfl, h.register parentPortId sender⟩
    | welcome | peerUp | spawnAck | realmExit | terminate | portMsg => exact ha.elim

lemma mem_peers_of_selectTarget {sender : String} (h : s.selectTarget sender = some n) :
    n ∈ s.peers := by
  obtain ⟨b, hb, rfl⟩ := map_eq_some_iff.mp h
  -- The best one so far is always a member.
  refine List.foldlRecOn (motive := fun best : Option (String × ℚ) => ∀ b ∈ best, b.1 ∈ s.peers)
    s.peers.entries _ (by simp) (fun best hbest peer hpeer b hb => ?_) b hb
  have hmem : peer.1 ∈ s.peers := mem_keys.mpr (mem_keys_of_mem hpeer)
  split at hb
  · exact hbest b hb
  · split at hb
    · cases hb
      exact hmem
    · split at hb
      · cases hb
        exact hmem
      · exact hbest b hb

/-! ## Runs -/

/-- An action with the states before and after it and what was sent. -/
structure Turn (V : Type) where
  before : SeedServer
  action : Action V
  after : SeedServer
  sent : List (Sent V)

variable (g : List (Turn V))

def noteTurn (s : SeedServer) (a : Action V) (t : SeedServer) : List (Turn V) :=
  ⟨s, a, t, ((s.perform a).map Prod.snd).getD []⟩ :: g

/-- The seed with the turns so far, the last one first. -/
def stepTurn : SeedServer × List (Turn V) → Action V → Option (SeedServer × List (Turn V)) :=
  watch (fun s a => (s.perform a).map Prod.fst) noteTurn

/-- The peers are the nodes with a time at which they were last seen. -/
def SameMembers (s : SeedServer) : Prop := ∀ n, n ∈ s.peers ↔ n ∈ s.lastSeen

/-- The seed has heard of the node, and it has not been lost since. -/
def Fresh (n : String) : Prop :=
  ∃ newer u older, g = newer ++ u :: older ∧ u.action.heard = some n ∧
    ∀ v ∈ newer, ¬ v.before.Loses v.action n

/-- The loss of a node is announced once when it ceases to be a member, and not otherwise. -/
def Turn.Announced (u : Turn V) : Prop :=
  ∀ n, announcements u.sent n = if n ∈ u.before.peers ∧ n ∉ u.after.peers then 1 else 0

/-- The number of periods of membership of the node that have begun. -/
def joins (n : String) : ℕ :=
  g.countP fun u => n ∉ u.before.peers ∧ n ∈ u.after.peers

/-- How often the loss of the node was announced. -/
def downs (n : String) : ℕ := (g.map fun u => announcements u.sent n).sum

/-- A heartbeat or a loss of connection is that of a member. -/
def Belongs (x : SeedServer × List (Turn V)) (a : Action V) : Prop :=
  a.OfMembers ∧ x.1.FromMember a

lemma FromMember.of_heard (h : s.FromMember a) (hn : a.heard = some n) :
    a.greeted = some n ∨ n ∈ s.peers := by
  unfold Action.heard at hn
  split at hn
  · exact .inl hn
  · cases hn
    exact .inr h
  · simp at hn

lemma FromMember.of_loses (h : s.FromMember a) (hsame : s.SameMembers)
    (hn : s.Loses a n) : n ∈ s.peers := by
  unfold Loses at hn
  split at hn
  · exact hn ▸ h
  · obtain ⟨ts, hts, -⟩ := hn
    exact (hsame n).mpr (lookup_isSome.mp (by rw [hts]; rfl))
  · exact hn.elim

lemma Action.heard_of_greeted (h : a.greeted = some n) : a.heard = some n := by
  unfold Action.greeted at h
  split at h
  · exact h
  · simp at h

lemma not_loses_of_heard (h : a.heard = some n) : ¬ s.Loses a n := by
  unfold Action.heard at h
  split at h
  · exact id
  · exact id
  · simp at h

/-- An action keeps the keys the same and announces what it should exactly if a heartbeat or loss is
that of a member. -/
lemma Changes.consistent_iff (hsame : s.SameMembers) (h : Changes s a t out) :
    t.SameMembers ∧ Turn.Announced ⟨s, a, t, out⟩ ↔ s.FromMember a := by
  constructor
  · rintro ⟨ht, hannounced⟩
    unfold FromMember
    split
    · -- A heartbeat sets the time of its sender, and makes no member.
      have hseen := (h.seen _).mpr (.inl rfl)
      exact (((h.peers _).mp ((ht _).mpr hseen)).resolve_left (by simp [Action.greeted])).1
    · -- The loss of a connection is announced.
      rename_i now sender m
      have hone : announcements out sender = 1 := (h.announced sender).trans (if_pos rfl)
      by_contra hmem
      have hzero := hannounced sender
      rw [if_neg fun hn => hmem hn.1] at hzero
      exact absurd (hone.symm.trans hzero) (by decide)
    · trivial
  · intro hmember
    refine ⟨fun n => ?_, fun n => ?_⟩
    · rw [h.peers, h.seen, hsame n]
      constructor
      · rintro (hn | hn)
        · exact .inl (Action.heard_of_greeted hn)
        · exact .inr hn
      · rintro (hn | hn)
        · exact (hmember.of_heard hn).imp_right fun hmem =>
            ⟨(hsame n).mp hmem, not_loses_of_heard hn⟩
        · exact .inr hn
    · dsimp only
      rw [h.announced]
      refine if_congr ⟨fun hn => ⟨hmember.of_loses hsame hn, fun hmem => ?_⟩, fun hn => ?_⟩ rfl rfl
      · rcases (h.peers n).mp hmem with hgreeted | ⟨-, hkept⟩
        · exact not_loses_of_heard (Action.heard_of_greeted hgreeted) hn
        · exact hkept hn
      · by_contra hkept
        exact hn.2 ((h.peers n).mpr (.inr ⟨hn.1, hkept⟩))

/-- The invariant of the membership, with the turns so far. -/
structure Membered (x : SeedServer × List (Turn V)) : Prop where
  same : x.1.SameMembers
  fresh : ∀ n ∈ x.1.peers, Fresh x.2 n
  announced : ∀ u ∈ x.2, u.Announced
  periods : ∀ n, joins x.2 n = downs x.2 n + if n ∈ x.1.peers then 1 else 0
  childless : x.1.registry.Childless

lemma membered_start (nodeId : String) : Membered (V := V) (start nodeId, []) where
  same := fun n => Iff.rfl
  fresh := fun n hn => absurd hn (notMem_empty n)
  announced := by simp
  periods := by
    intro n
    have hnone : n ∉ (start nodeId).peers := notMem_empty n
    rfl
  childless := fun p => rfl

lemma Membered.step {x y : SeedServer × List (Turn V)} (h : Membered x) (hok : Belongs x a)
    (hstep : stepTurn x a = some y) : Membered y := by
  obtain ⟨hnext, hnote⟩ := watch_eq_some.mp hstep
  obtain ⟨t, g⟩ := y
  obtain ⟨s, g'⟩ := x
  obtain ⟨t', out, hperform, hchildless⟩ := perform_ends hok.1 h.childless
  dsimp only at hnext hnote hperform
  rw [hperform, map_some, Option.some.injEq] at hnext
  obtain rfl : t' = t := hnext
  obtain rfl : g = ⟨s, a, t', out⟩ :: g' := by rw [hnote, noteTurn, hperform]; rfl
  have hchanges := Changes.of_perform hok.1 hperform
  obtain ⟨hsame, hannounced⟩ := (hchanges.consistent_iff h.same).mpr hok.2
  refine ⟨hsame, fun n hn => ?_, ?_, fun n => ?_, hchildless⟩
  · rcases (hchanges.peers n).mp hn with hgreeted | ⟨hmem, hkept⟩
    · exact ⟨[], _, g', rfl, Action.heard_of_greeted hgreeted, by simp⟩
    · -- The node was heard of before, and this action does not lose it.
      obtain ⟨newer, u, older, rfl, hheard, hnewer⟩ := h.fresh n hmem
      exact ⟨_ :: newer, u, older, rfl, hheard, forall_mem_cons.mpr ⟨hkept, hnewer⟩⟩
  · exact forall_mem_cons.mpr ⟨hannounced, h.announced⟩
  · have hperiods := h.periods n
    have hsent := hannounced n
    simp only [joins, downs, countP_cons, map_cons, sum_cons, decide_eq_true_eq] at hperiods hsent ⊢
    rw [hperiods, hsent]
    by_cases hs : n ∈ s.peers <;> by_cases ht : n ∈ t'.peers <;> simp [hs, ht, Nat.add_comm]

/-- In every run in which each heartbeat and each loss of a connection is that of a member: the two
maps have the same keys; the target of a spawn was heard of and not lost since; every turn has
announced exactly the nodes that ceased to be members in it, once; and every action ends, and keeps
this exactly if a heartbeat or loss is that of a member. -/
theorem membership_consistent {nodeId : String} {g : List (Turn V)}
    (h : Run stepTurn Belongs (start nodeId, []) (s, g)) :
    s.SameMembers ∧ (∀ sender n, s.selectTarget sender = some n → Fresh g n) ∧
      (∀ u ∈ g, u.Announced) ∧
      (∀ n, joins g n = downs g n + if n ∈ s.peers then 1 else 0) ∧
      ∀ a : Action V, a.OfMembers → ∃ t out, s.perform a = some (t, out) ∧
        (t.SameMembers ∧ Turn.Announced ⟨s, a, t, out⟩ ↔ s.FromMember a) := by
  have hmembered : Membered (s, g) :=
    h.invariant (fun x a y hx hok hstep => hx.step hok hstep) (membered_start nodeId)
  refine ⟨hmembered.same, fun sender n hn => hmembered.fresh n (mem_peers_of_selectTarget hn),
    hmembered.announced, hmembered.periods, fun a ha => ?_⟩
  obtain ⟨t, out, hperform, -⟩ := perform_ends ha hmembered.childless
  exact ⟨t, out, hperform, (Changes.of_perform ha hperform).consistent_iff hmembered.same⟩

instance (a : Action V) : Decidable a.OfMembers := by
  unfold Action.OfMembers
  split <;> infer_instance

instance (s : SeedServer) (a : Action V) : Decidable (s.FromMember a) := by
  unfold FromMember
  split <;> infer_instance

instance (x : SeedServer × List (Turn V)) (a : Action V) : Decidable (Belongs x a) :=
  inferInstanceAs (Decidable (_ ∧ _))

/-- A node joins, is silent until the sweep finds it overdue, and joins again. -/
def rejoining : List (Action Unit) :=
  [.handle 0 "a" (.hello "a" ⟨0, 0⟩), .handle 2500 "a" (.heartbeat 2500), .sweep 10001 7500,
    .handle 10002 "a" (.hello "a" ⟨0, 0⟩)]

/-- The loss of a node that joins again was announced once. -/
theorem rejoined_node_announced_once : ∃ (s : SeedServer) (g : List (Turn Unit)),
    Run stepTurn Belongs (start "seed", []) (s, g) ∧ s.selectTarget "b" = some "a" ∧
      s.SameMembers ∧ Fresh g "a" ∧ joins g "a" = 2 ∧ downs g "a" = 1 := by
  have hp : (exec (restrict stepTurn Belongs) (start "seed", []) rejoining).bind
      (fun x => some (x.1.selectTarget "b", joins x.2 "a", decide ("a" ∈ x.1.peers))) =
        some (some "a", 2, true) := by
    decide +kernel
  obtain ⟨⟨s, g⟩, -, hrun, hp⟩ := Run.exists_of_exec hp
  simp only [Option.some.injEq, Prod.mk.injEq, decide_eq_true_eq] at hp
  obtain ⟨htarget, hjoins, hmem⟩ := hp
  obtain ⟨hsame, hfresh, -, hperiods, -⟩ := membership_consistent hrun
  have hone := hperiods "a"
  rw [hjoins, if_pos hmem] at hone
  exact ⟨s, g, hrun, htarget, hsame, hfresh "b" "a" htarget, hjoins, (Nat.succ.inj hone).symm⟩

/-- A heartbeat after expiry leaves its sender in `#lastSeen`, and the next sweep announces its loss
again. -/
theorem expired_node_announced_twice :
    ((exec stepTurn (start "seed", [])
      [.handle 0 "a" (.hello "a" ⟨0, 0⟩), .sweep 7501 7500,
        .handle 7502 "a" (.heartbeat (V := Unit) 7502)]).map fun x =>
          (x.1.peers.keys, x.1.lastSeen.keys, joins x.2 "a", downs x.2 "a")) =
      some ([], ["a"], 1, 1) ∧
    ((exec stepTurn (start "seed", [])
      [.handle 0 "a" (.hello "a" ⟨0, 0⟩), .sweep 7501 7500,
        .handle 7502 "a" (.heartbeat (V := Unit) 7502), .sweep 15003 7500]).map fun x =>
          (x.1.peers.keys, x.1.lastSeen.keys, joins x.2 "a", downs x.2 "a")) =
      some ([], [], 1, 2) := by
  decide +kernel

end SeedServer

end Fino.Cluster
