import Fino.Cluster.InFlight

/-!
# Realms without an owner

If the node that has asked for a realm is lost before the spawn is acknowledged, the seed forgets
the spawn and the realm runs on, unknown to it (`spawn_outlives_asker`). If the seed registers
without loss and loses only nodes with neither a pending spawn nor a realm elsewhere (`Careful`),
something accounts for every running realm (`Held`); when nothing is on its way, it is registered
under the port it was asked for from (`no_orphans`).
-/

namespace Fino.Cluster

open Lib List Option ClusterClient AList Lib.Forest
open Workflow (Time)

variable {V : Type}

/-! ## Registered realms -/

namespace SeedServer

variable {s t : SeedServer} {g : History V} {a : Input V} {out : List (Sent V)} {n x : String}
  {o : Origin}

lemma Move.lookup_spawned (h : Move s g a t out) (hx : g.spawned.lookup x = some o)
    (t' : SeedServer) : (note g s a t').spawned.lookup x = some o := by
  have hkeeps : s.acked a = none → (note g s a t').spawned.lookup x = some o := by
    intro hacked
    rw [note, hacked]
    exact hx
  cases h with
  | idle hacked | exit _ hacked => exact hkeeps hacked
  | pass => exact hx
  | @settle _ n r c ok _ info hinfo hok =>
    cases ok with
    | false => exact hx
    | true =>
      -- The realm that is made known is a new one.
      obtain ⟨-, -, -, -, -, hnew⟩ := hok rfl
      have hne : x ≠ c := by
        rintro rfl
        exact hnew (lookup_isSome.mp (by rw [hx]; rfl))
      simp only [note, acked, hinfo, map_some, elim_some]
      rw [lookup_set, if_neg hne, hx]
  | lose hlost => exact hkeeps (acked_of_lost hlost)

lemma Move.registers {now : Time} {r : String} {info : PendingSpawn}
    (h : Move s g (.handle now n (.spawnAck r x true none)) t out)
    (hinfo : s.pendingSpawns.lookup r = some info) (t' : SeedServer) :
    (note g s (.handle now n (.spawnAck r x true none)) t').spawned.lookup x =
        some ⟨info.parentPortId, info.requesterNodeId, n⟩ ∧ t.registry.Registered x := by
  have hacked : s.acked (.handle now n (.spawnAck r x true none) : Input V) =
      some (x, ⟨info.parentPortId, info.requesterNodeId, n⟩) := by
    rw [acked, hinfo]
    rfl
  refine ⟨?_, ?_⟩
  · rw [note, hacked, elim_some, lookup_set, if_pos rfl]
  · cases h with
    | idle hnone | exit _ hnone => exact absurd (hnone.symm.trans hacked) (by simp)
    | settle =>
      exact registered_register.mpr (.inl rfl)
    | lose hlost => exact absurd hlost (by simp [Input.lost])

/-- A registered realm stays so or is ordered to terminate, unless it has exited or a node is lost
that hosts it or has realms elsewhere. -/
lemma Move.stays (h : Move s g a t out) (howned : Owned (s, g))
    (hspawned : g.spawned.lookup x = some o) (hx : s.registry.Registered x)
    (hexit : ∀ e, a.exit = some e ∨ (∃ y, s.pendingRealmExits.lookup y = some e) → e.realmId ≠ x)
    (hlost : ∀ n, a.lost = some n → n ≠ o.nodeId ∧ NoOrphans s g n) :
    t.registry.Registered x ∨ .send o.nodeId (.terminate x) ∈ out := by
  cases h with
  | idle _ _ hregistry =>
    rw [hregistry]
    exact .inl hx
  | pass => exact .inl (registered_register.mpr (.inr hx))
  | @settle _ _ _ _ ok =>
    cases ok with
    | false => exact .inl hx
    | true => exact .inl (registered_register.mpr (.inr hx))
  | @exit _ e _ l _ _ _ _ he hregistry _ _ _ _ hl hmem =>
    by_cases hxl : x ∈ l
    · -- It is below the realm that has exited, and is terminated.
      right
      refine mem_append_right _ (mem_append_right _ ?_)
      refine mem_map.mpr ⟨(x, o.nodeId), mem_filterMap.mpr ⟨x, hxl, ?_⟩, rfl⟩
      rw [if_neg (hexit e he).symm, howned.getNodeId_eq hspawned hx]
      rfl
    · rw [registry_prune, RealmRegistry.registered_removeAll, hregistry]
      exact .inl ⟨hxl, hx⟩
  | @lose _ n _ l _ hn _ hl hmem =>
    obtain ⟨hne, hnone⟩ := hlost n hn
    rw [registry_prune, RealmRegistry.registered_removeAll]
    refine .inl ⟨fun hxl => ?_, hx⟩
    -- What goes with the node is hosted there, which the realm is not.
    obtain ⟨-, root, hroot, hbelow⟩ := (hmem x).mp hxl
    have hhost : s.registry.getNodeId x = some n := by
      rcases below_iff_eq_or_descends.mp hbelow with rfl | hdesc
      · exact hroot
      · exact hnone.nodeId_eq howned hx hroot ((howned.descends_iff hx).mp hdesc)
    rw [howned.getNodeId_eq hspawned hx, Option.some.injEq] at hhost
    exact hne hhost.symm

end SeedServer

namespace Network

variable {w w' : Network V} {g g' : Records V} {n r q p x : String}

/-- The realm has ended: its identifier was used, and there is no relay for it. -/
def Gone (w : Network V) (g : Records V) (x : String) : Prop :=
  ∃ n k, x = childPortId n k ∧ w.Used g n k ∧
    ∀ c, w.clients.lookup n = some c → x ∉ c.relays

/-- The exit of the realm is on its way to the seed or held there. -/
def Reported (w : Network V) (x : String) : Prop :=
  ∃ e : RealmExitMessage, e.realmId = x ∧
    ((∃ n, (n, .realmExit e) ∈ w.toSeed) ∨ ∃ y, w.seed.pendingRealmExits.lookup y = some e)

lemma Gone.move (h : w.Gone g x) (hmove : Move w g w' g') : w'.Gone g' x := by
  obtain ⟨n, k, rfl, hused, hnone⟩ := h
  refine ⟨n, k, rfl, hused.move hmove, fun d hd hx => ?_⟩
  rcases hmove.lookup_clients hd with hd | ⟨-, -, hnew⟩ | ⟨c, a, out, hc, hclient⟩
  · exact hnone d hd hx
  · exact hnew hused.1
  · obtain ⟨y, p, hports⟩ := mem_relays_iff.mp hx
    rcases hclient.ports_eq hports with hports | ⟨-, -, -, -, heq, -⟩
    · exact hnone c hc (mem_relays_iff.mpr ⟨y, p, hports⟩)
    · -- A new relay has a number that was not used.
      obtain ⟨-, rfl⟩ := childPortId_inj heq
      exact lt_irrefl _ (hused.2 c hc)

lemma gone_of_reported (h : ∀ x, w.Reported x → w.Gone g x) (hnamed : Named w g)
    (hmove : Move w g w' g') (hx : w'.Reported x) : w'.Gone g' x := by
  have hgone : w.Reported x → w'.Gone g' x := fun hx => (h x hx).move hmove
  obtain ⟨e, rfl, he⟩ := hx
  cases hmove with
  | @seed b t out clients toSeed _ hmove _ _ _ _ htaken =>
    refine hgone ⟨e, rfl, ?_⟩
    rcases he with ⟨n, he⟩ | ⟨y, he⟩
    · exact .inl ⟨n, htaken.subset (mem_append_right _ he)⟩
    · rcases hmove.pendingRealmExits he with he | he
      · exact .inr ⟨y, he⟩
      · obtain ⟨n, hn⟩ := SeedServer.Input.mem_taken_of_exit he
        exact .inl ⟨n, htaken.subset (mem_append_left _ hn)⟩
  | @client n c d a out toNode hc hreact hmove htaken =>
    rcases he with ⟨n', he⟩ | he
    · rcases mem_append.mp he with he | he
      · exact hgone ⟨e, rfl, .inl ⟨n', he⟩⟩
      · -- The relay has just ended.
        obtain ⟨msg, hmsg, heq⟩ := mem_map.mp he
        obtain ⟨rfl, rfl⟩ := Prod.mk.inj heq
        obtain ⟨hold, hnew⟩ := hmove.of_realmExit hmsg
        obtain ⟨y, p, hports⟩ := mem_relays_iff.mp hold
        obtain ⟨-, k, hk, hlt⟩ := hnamed.relays n c e.realmId y p hc hports
        have hd : ∀ c', (w.clients.set n d).lookup n = some c' → c' = d := by
          intro c' hc'
          rw [lookup_set, if_pos rfl, Option.some.injEq] at hc'
          exact hc'.symm
        refine ⟨n, k, hk, ⟨(hnamed.clients n c hc).2, fun c' hc' => ?_⟩, fun c' hc' => ?_⟩
        · rw [hd c' hc']
          exact hlt.trans_le hmove.nodeId_eq.2
        · rw [hd c' hc']
          exact hnew
    · exact hgone ⟨e, rfl, .inr he⟩
  | crash => exact hgone ⟨e, rfl, he⟩

/-! ## Realms that are running -/

/-- What accounts for the realm `x` on `n`, made for the spawn `r` that `q` asked for from `p`. -/
inductive Held (w : Network V) (g : Records V) (n x r q p : String) : Prop
  | acknowledged (hack : (n, .spawnAck r x true none) ∈ w.toSeed)
      (hpending : w.seed.pendingSpawns.lookup r = some ⟨q, p, n⟩)
  | registered (hspawned : g.tree.spawned.lookup x = some ⟨p, q, n⟩)
      (hregistered : w.seed.registry.Registered x)
  | terminated (horder : (n, .terminate x) ∈ w.toNode ∨ (n, x) ∈ w.terminating)

/-- The invariant of the network: every realm that a client hosts is accounted for. -/
structure Sheltered (x : Network V × Records V) : Prop where
  owned : SeedServer.Owned (x.1.seed, x.2.tree)
  named : Named x.1 x.2
  connected : Connected x.1
  tracked : Tracked x.1 x.2
  exits : ∀ y, x.1.Reported y → x.1.Gone x.2 y
  held : ∀ n c y p, x.1.clients.lookup n = some c → c.ports y = some (y, p) →
    ∃ r q, x.2.made.lookup y = some r ∧ x.2.asked.lookup r = some q ∧ x.1.Held x.2 n y r q p

variable {c : ClusterClient}

lemma Named.lookup_made {y : String} (h : Named w g) (hmove : Move w g w' g')
    (hc : w.clients.lookup n = some c) (hx : c.ports x = some (y, p))
    (hr : g.made.lookup x = some r) : g'.made.lookup x = some r := by
  cases hmove with
  | seed | crash => exact hr
  | @client n' c' d a out _ hc' =>
    cases hmakes : makes (c', a) with
    | none => exact hr
    | some e =>
      obtain ⟨r', p', config, -, rfl⟩ := makes_eq_some.mp hmakes
      obtain ⟨-, k, rfl, hk⟩ := h.relays n c x y p hc hx
      have hne : childPortId n k ≠ childPortId c'.nodeId c'.localHandle := by
        intro heq
        obtain ⟨rfl, rfl⟩ := childPortId_inj heq
        rw [(h.clients n' c' hc').1, hc', Option.some.injEq] at hc
        exact lt_irrefl _ (hc ▸ hk)
      rw [elim_some, lookup_set, if_neg hne, hr]

lemma Tracked.not_taken {l l' : List (String × ClusterMessage V)}
    {m m' : String × ClusterMessage V} (h : Tracked w g) (hl : (l ++ l').Subperm w.toSeed)
    (hm : m ∈ l) (hm' : m' ∈ l') (hr : m.2.requestId = some r) : m'.2.requestId ≠ some r := by
  intro hr'
  have hsingle := h.single r
  have hle := hl.countP_le (fun m => m.2.requestId = some r)
  have hpos : 0 < l.countP (fun m => m.2.requestId = some r) :=
    countP_pos_iff.mpr ⟨m, hm, decide_eq_true hr⟩
  have hpos' : 0 < l'.countP (fun m => m.2.requestId = some r) :=
    countP_pos_iff.mpr ⟨m', hm', decide_eq_true hr'⟩
  rw [countP_append] at hle
  unfold concerning at hsingle
  omega

variable {joined : List String}

lemma Held.seed {b : SeedServer.Input V} {t : SeedServer} {out : List (Sent V)}
    {clients : OrderedMap String ClusterClient} {toSeed : List (String × ClusterMessage V)}
    (h : w.Held g n x r q p) (hs : Sheltered (w, g)) (hc : w.clients.lookup n = some c)
    (hx : x ∈ c.relays) (hn : n ∈ clients) (hmove : SeedServer.Move w.seed g.tree b t out)
    (hlost : ∀ n, b.lost = some n → n ∉ w.clients ∧ (∀ m ∈ toSeed, m.1 ≠ n) ∧ w.Losable g n)
    (htaken : (b.taken ++ toSeed).Subperm w.toSeed)
    (hkept : ∀ m ∈ w.toSeed, m ∈ b.taken ++ toSeed ∨ b.lost = some m.1) :
    Held ⟨t, clients, toSeed, w.toNode ++ route clients out, w.terminating⟩
      ⟨joined, g.asked, g.made, SeedServer.note g.tree w.seed b w.seed⟩ n x r q p := by
  have hrunning : n ∈ w.clients := lookup_isSome.mp (by rw [hc]; rfl)
  cases h with
  | acknowledged hack hpending =>
    rcases hkept _ hack with hmem | hdown
    · rcases mem_append.mp hmem with hmem | hmem
      · -- The acknowledgement has arrived.
        obtain ⟨now, rfl⟩ := SeedServer.Input.eq_of_mem_taken hmem
        obtain ⟨hspawned, hregistered⟩ := hmove.registers hpending w.seed
        exact .registered hspawned hregistered
      · refine .acknowledged hmem (Move.seed_keeps hmove hlost hpending hrunning fun m hm hr => ?_)
        exact hs.tracked.not_taken htaken hm hmem hr rfl
    · exact absurd hrunning (hlost n hdown).1
  | registered hspawned hregistered =>
    have hexit : ∀ e, b.exit = some e ∨ (∃ y, w.seed.pendingRealmExits.lookup y = some e) →
        e.realmId ≠ x := by
      rintro e he rfl
      have hreported : w.Reported e.realmId := by
        refine ⟨e, rfl, he.imp_left fun he => ?_⟩
        obtain ⟨n, hn⟩ := SeedServer.Input.mem_taken_of_exit he
        exact ⟨n, htaken.subset (mem_append_left _ hn)⟩
      obtain ⟨n', k', heq', -, hnone⟩ := hs.exits _ hreported
      obtain ⟨y, p, hports⟩ := mem_relays_iff.mp hx
      obtain ⟨-, k, heq, -⟩ := hs.named.relays n c _ y p hc hports
      obtain ⟨rfl, -⟩ := childPortId_inj (heq'.symm.trans heq)
      exact hnone c hc hx
    have hstays := hmove.stays hs.owned hspawned hregistered hexit fun n' hn' => by
      obtain ⟨hdown, -, -, hnone⟩ := hlost n' hn'
      refine ⟨?_, hnone⟩
      rintro rfl
      exact hdown hrunning
    rcases hstays with hstays | hsent
    · exact .registered (hmove.lookup_spawned hspawned w.seed) hstays
    · exact .terminated (.inl (mem_append_right _ (mem_route_of_send hn hsent)))
  | terminated horder => exact .terminated (horder.imp_left (mem_append_left _))

lemma Held.client {n' : String} {c' d : ClusterClient} {a : ClusterClient.Input V}
    {out : List (Effect V)} {toNode : List (String × ClusterMessage V)}
    {asked made : OrderedMap String String} (h : w.Held g n x r q p)
    (hc' : w.clients.lookup n' = some c') (hreact : c'.react a = some (d, out))
    (htaken : w.toNode.Perm (a.taken n' ++ toNode)) (hc : w.clients.lookup n = some c)
    (hx : x ∈ c.relays) (hd : n = n' → x ∈ d.relays) :
    Held { w with
        clients := w.clients.set n' d
        toSeed := w.toSeed ++ (out.filterMap Effect.message).map fun msg => (n', msg)
        toNode := toNode
        terminating := (w.terminating ++ (out.filterMap Effect.ordered).map
          fun x => (n', x)).filter fun t => t.1 ≠ n' ∨ t.2 ∈ d.relays }
      ⟨joined, asked, made, g.tree⟩ n x r q p := by
  have hkeep : n ≠ n' ∨ x ∈ d.relays := by
    by_cases hn : n = n'
    · exact .inr (hd hn)
    · exact .inl hn
  cases h with
  | acknowledged hack hpending => exact .acknowledged (mem_append_left _ hack) hpending
  | registered hspawned hregistered => exact .registered hspawned hregistered
  | terminated horder =>
    refine .terminated ?_
    rcases horder with horder | horder
    · rcases mem_append.mp (htaken.mem_iff.mp horder) with horder | horder
      · -- The order has arrived at the node, which passes it on to the realm.
        right
        cases a with
        | handle failure msg =>
          cases mem_singleton.mp horder
          rw [hc', Option.some.injEq] at hc
          subst hc
          have hkeys : x ∈ c'.relays.keys := mem_keys.mpr hx
          simp only [react, handle, if_pos hkeys] at hreact
          cases hreact
          exact mem_filter.mpr ⟨mem_append_right _ (mem_singleton.mpr rfl), decide_eq_true hkeep⟩
        | _ => cases horder
      · exact .inl horder
    · exact .inr (mem_filter.mpr ⟨mem_append_left _ horder, decide_eq_true hkeep⟩)

lemma Sheltered.held_move {d : ClusterClient} (h : Sheltered (w, g)) (hmove : Move w g w' g')
    (hd : w'.clients.lookup n = some d) (hx : d.ports x = some (x, p)) :
    ∃ r q, g'.made.lookup x = some r ∧ g'.asked.lookup r = some q ∧ w'.Held g' n x r q p := by
  -- A relay from before has its records, which are not overwritten.
  have hold : ∀ c, w.clients.lookup n = some c → c.ports x = some (x, p) →
      (∀ r q, w.Held g n x r q p → w'.Held g' n x r q p) →
      ∃ r q, g'.made.lookup x = some r ∧ g'.asked.lookup r = some q ∧ w'.Held g' n x r q p := by
    intro c hc hx hheld
    obtain ⟨r, q, hmade, hasked, hr⟩ := h.held n c x p hc hx
    exact ⟨r, q, h.named.lookup_made hmove hc hx hmade, h.named.lookup_asked hmove hasked,
      hheld r q hr⟩
  have hmem : ∀ {c : ClusterClient}, c.ports x = some (x, p) → x ∈ c.relays :=
    fun hx => mem_relays_iff.mpr ⟨x, p, hx⟩
  have hlookup : w'.clients.lookup n = some d := hd
  cases hmove with
  | @seed b t out clients toSeed _ hmove hclients _ _ hlost htaken hkept =>
    have hn : n ∈ clients := lookup_isSome.mp (by rw [hlookup]; rfl)
    rw [hclients] at hd
    split_ifs at hd
    · cases hd
      exact absurd hx (by simp [ports, ClusterClient.start])
    · exact hold d hd hx fun r q hr => hr.seed h hd (hmem hx) hn hmove hlost htaken hkept
  | @client n' c d' a out toNode hc hreact hmove htaken =>
    rw [lookup_set] at hd
    split_ifs at hd with heq
    · subst heq
      cases hd
      rcases hmove.ports_eq hx with hports | ⟨r, p', config, rfl, hid, he, -, rfl⟩
      · exact hold c hc hports fun r q hr =>
          hr.client hc hreact htaken hc (hmem hports) fun _ => hmem hx
      · -- The realm has just been made, for a spawn that is pending.
        obtain rfl : p = p' := (Prod.mk.inj he).2
        obtain ⟨q, hq, hpending⟩ := h.tracked.orders n r p config
          (htaken.mem_iff.mpr (mem_append_left _ (mem_singleton.mpr rfl)))
        refine ⟨r, q, ?_, hq, .acknowledged (mem_append_right _ ?_) hpending⟩
        · simp only [makes, elim_some]
          rw [lookup_set, if_pos hid]
        · exact mem_singleton.mpr rfl
    · exact hold d hd hx fun r q hr =>
        hr.client hc hreact htaken hd (hmem hx) fun hn => absurd hn heq
  | crash n' =>
    rw [lookup_erase_eq_ite] at hd
    split_ifs at hd with heq
    refine hold d hd hx fun r q hr => ?_
    cases hr with
    | acknowledged hack hpending => exact .acknowledged hack hpending
    | registered hspawned hregistered => exact .registered hspawned hregistered
    | terminated horder =>
      refine .terminated (horder.imp (fun horder => ?_) fun horder => ?_) <;>
      exact mem_filter.mpr ⟨horder, decide_eq_true heq⟩

lemma sheltered_start (seedId : String) : Sheltered (start seedId, (.empty : Records V)) where
  owned := SeedServer.owned_start seedId
  named := ⟨fun n c hc => absurd hc (by simp [start]),
    fun r q hr => absurd hr (by simp [Records.empty]),
    fun n c x y p hc => absurd hc (by simp [start])⟩
  connected := ⟨fun x n hx => absurd hx (by simp [start, SeedServer.start, RealmRegistry.empty,
      RealmRegistry.getNodeId]), fun n hn => absurd hn (by simp [start]),
    fun m hm => absurd hm not_mem_nil, fun m hm => absurd hm not_mem_nil,
    fun m hm => absurd hm not_mem_nil⟩
  tracked := ⟨fun m hm => absurd hm not_mem_nil, fun m hm => absurd hm not_mem_nil,
    fun n r p config hm => absurd hm not_mem_nil, fun r => Nat.zero_le 1⟩
  exits := by
    rintro y ⟨e, -, ⟨n, he⟩ | ⟨z, he⟩⟩
    · cases he
    · exact absurd he (by simp [start, SeedServer.start])
  held := fun n c y p hc => absurd hc (by simp [start])

lemma Move.owned (hmove : Move w g w' g') (howned : SeedServer.Owned (w.seed, g.tree)) :
    SeedServer.Owned (w'.seed, g'.tree) := by
  cases hmove with
  | seed hmove => exact (hmove.treeStep w.seed).owned howned
  | client | crash => exact howned

lemma Sheltered.step {x y : Network V × Records V} {a : Action V} (h : Sheltered x)
    (hok : Careful x a) (hstep : stepRecording x a = some y) : Sheltered y := by
  have hmove : Move x.1 x.2 y.1 y.2 := .of_step h.owned h.named h.connected hok hstep
  exact ⟨hmove.owned h.owned, h.named.move hmove, h.connected.move hmove,
    h.tracked.move h.named h.connected hmove,
    fun z hz => gone_of_reported h.exits h.named hmove hz,
    fun n d z p hd hz => h.held_move hmove hd hz⟩

/-- In every state of a careful run in which nothing is on its way, every running realm was made for
a spawn; who asked is a member, and the realm is registered under its parent port, on the node that
it runs on. -/
theorem no_orphans {seedId : String}
    (h : Run stepRecording Careful (start seedId, (.empty : Records V)) (w, g))
    (hquiescent : w.Quiescent) {c : ClusterClient} {relay : RealmRelay}
    (hc : w.clients.lookup n = some c) (hrelay : c.relays.lookup x = some relay) :
    ∃ r q, g.made.lookup x = some r ∧ g.asked.lookup r = some q ∧ q ∈ w.seed.peers ∧
      w.seed.registry.owner x = some (some relay.parentPortId, n) := by
  have hs : Sheltered (w, g) :=
    h.invariant (fun x a y hx hok hstep => hx.step hok hstep) (sheltered_start seedId)
  have hports : c.ports x = some (relay.childPortId, relay.parentPortId) := by
    rw [ports, hrelay]
    rfl
  rw [(hs.named.relays n c x _ _ hc hports).1] at hports
  obtain ⟨r, q, hmade, hasked, hheld⟩ := hs.held n c x relay.parentPortId hc hports
  refine ⟨r, q, hmade, hasked, ?_⟩
  obtain ⟨htoSeed, htoNode, hterminating⟩ := hquiescent
  cases hheld with
  | acknowledged hack =>
    rw [htoSeed] at hack
    exact absurd hack not_mem_nil
  | registered hspawned hregistered =>
    obtain ⟨howner, hhost⟩ := hs.owned.spawned x _ hspawned hregistered
    exact ⟨hs.connected.hosts _ q hhost, howner⟩
  | terminated horder =>
    rw [htoNode, hterminating] at horder
    rcases horder with horder | horder <;> exact absurd horder not_mem_nil

instance (s : SeedServer) (g : History V) (n : String) : Decidable (s.NoOrphans g n) :=
  decidable_of_iff (∀ e ∈ g.spawned.entries, s.registry.Registered e.1 →
      e.2.requesterNodeId = n → e.2.nodeId = n)
    ⟨fun h x o hx ho => h ⟨x, o⟩ (mem_lookup_iff.mp ho) hx,
      fun h e he hx => h e.1 e.2 hx (mem_lookup_iff.mpr he)⟩

instance (w : Network V) (g : Records V) (n : String) : Decidable (w.Losable g n) :=
  decidable_of_iff ((∀ e ∈ w.seed.pendingSpawns.entries, e.2.requesterNodeId ≠ n) ∧
      w.seed.NoOrphans g.tree n)
    (and_congr_left fun _ => ⟨fun h r info hr => h ⟨r, info⟩ (mem_lookup_iff.mp hr),
      fun h e he => h e.1 e.2 (mem_lookup_iff.mpr he)⟩)

instance (p : Network V × Records V) (a : Action V) : Decidable (Careful p a) := by
  unfold Careful
  split <;> infer_instance

instance (w : Network V) : Decidable w.Quiescent := inferInstanceAs (Decidable (_ ∧ _ ∧ _))

/-- Two nodes join, the first asks for a realm, and the spawn is passed on. -/
def spawning : List (Action Unit) :=
  [.join 0 "a" ⟨0, 0⟩, .join 0 "b" ⟨0, 0⟩, .call "a" (.spawnRemote "a/p" ⟨"e", "", [], none⟩),
    .toNode 0 none, .toNode 0 none, .toNode 0 none, .toSeed 0 1]

/-- The acknowledgement reaches the seed and then the node that has asked. -/
def acknowledging : List (Action Unit) := [.toNode 0 none, .toSeed 0 2, .toNode 0 none]

/-- A spawn that is not disturbed ends with its realm registered. -/
theorem undisturbed_spawn_registered : ∃ (w : Network Unit) (g : Records Unit),
    Run stepRecording Careful (start "seed", .empty) (w, g) ∧ w.Quiescent ∧
      ∃ r q, g.made.lookup "b/0" = some r ∧ g.asked.lookup r = some q ∧ q ∈ w.seed.peers ∧
        w.seed.registry.owner "b/0" = some (some "a/p", "b") := by
  have hend : (exec (restrict stepRecording Careful) (start "seed", (.empty : Records Unit))
      (spawning ++ acknowledging)).bind (fun x => (x.1.clients.lookup "b").bind fun c =>
        (c.relays.lookup "b/0").map fun relay => (relay, decide x.1.Quiescent)) =
      some (⟨"b/0", "a/p", 0, none⟩, true) := by decide +kernel
  obtain ⟨⟨w, g⟩, -, hrun, hend⟩ := Run.exists_of_exec hend
  obtain ⟨c, hc, hend⟩ := bind_eq_some_iff.mp hend
  obtain ⟨relay, hrelay, heq⟩ := map_eq_some_iff.mp hend
  simp only [Prod.mk.injEq, decide_eq_true_eq] at heq
  obtain ⟨rfl, hquiescent⟩ := heq
  exact ⟨w, g, hrun, hquiescent, no_orphans hrun hquiescent hc hrelay⟩

/-- The node that has asked crashes and is lost before the acknowledgement arrives: the realm runs
on, unregistered. -/
theorem spawn_outlives_asker :
    ((exec step (start "seed") (spawning ++ [.crash "a", .peerDown 2 "a"] ++ acknowledging)).bind
      fun w => (w.clients.lookup "b").map fun c =>
        (decide w.Quiescent, c.relays.keys, w.seed.peers.keys,
          w.seed.registry.getNodeId "b/0")) =
      some (true, ["b/0"], ["b"], none) := by
  decide +kernel

end Network

end Fino.Cluster
