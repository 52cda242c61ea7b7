import Fino.Cluster.ToWire

/-!
# A message says one thing

No message has two contents (`Content.saidBy_unique`), and the object of a content says it
(`Content.saidBy_value`). A content is left the same exactly by a change of texts that changes none
of its own (`Content.map_eq_self`).
-/

namespace Fino.Cluster.Codec

open Lib List Protobuf Content

/-! ## A message says one thing -/

variable {α : Type}

/-- A property that may be missing says at most one thing. -/
lemma optional_inj {value : α → Value} (hdefined : ∀ x, value x ≠ .undefined)
    (hinj : ∀ x y, value x = value y → x = y) {x y : Option α}
    (h : optional value x = optional value y) : x = y := by
  cases x with
  | none =>
    cases y with
    | none => rfl
    | some y => exact absurd h.symm (hdefined y)
  | some x =>
    cases y with
    | none => exact absurd h (hdefined x)
    | some y => rw [hinj x y h]

lemma optionalText_inj {x y : Option String}
    (h : optional Value.string x = optional Value.string y) : x = y :=
  optional_inj (fun _ => by simp) (fun _ _ => Value.string.inj) h

lemma map_inj {value : α → Value} (hinj : ∀ x y, value x = value y → x = y) {l l' : List α}
    (h : Value.array (l.map value) = .array (l'.map value)) : l = l' :=
  map_injective_iff.mpr hinj (Value.array.inj h)

lemma textArray_inj {l l' : List String} (h : textArray l = textArray l') : l = l' :=
  map_inj (fun _ _ => Value.string.inj) h

variable {value : Value} {saidBy : Value → α → Prop}

lemma optionSaidBy_unique (hdefined : ∀ x, ¬ saidBy .undefined x)
    (hunique : ∀ x y, saidBy value x → saidBy value y → x = y) {x y : Option α}
    (hx : OptionSaidBy saidBy value x) (hy : OptionSaidBy saidBy value y) : x = y := by
  cases x with
  | none =>
    cases y with
    | none => rfl
    | some y =>
      rw [show value = .undefined from hx] at hy
      exact absurd hy (hdefined y)
  | some x =>
    cases y with
    | none =>
      rw [show value = .undefined from hy] at hx
      exact absurd hx (hdefined x)
    | some y => rw [hunique x y hx hy]

/-- An array says at most one list. -/
lemma listSaidBy_unique (saidBy : Value → α → Prop)
    (hunique : ∀ value x y, saidBy value x → saidBy value y → x = y) {l l' : List α}
    (h : ListSaidBy saidBy value l) (h' : ListSaidBy saidBy value l') : l = l' := by
  obtain ⟨items, rfl, hl⟩ := h
  obtain ⟨_, ⟨⟩, hl'⟩ := h'
  induction hl generalizing l' with
  | nil =>
    cases hl'
    rfl
  | cons hx hl ih =>
    cases hl' with
    | cons hx' hl' => rw [hunique _ _ _ hx hx', ih hl']

lemma Directive.listSaidBy_unique {l l' : List String} (h : Directive.ListSaidBy l value)
    (h' : Directive.ListSaidBy l' value) : l = l' := by
  obtain rfl | ⟨rfl, rfl⟩ := h
  · obtain h | ⟨⟨⟩, -⟩ := h'
    exact textArray_inj h
  · obtain ⟨⟨⟩⟩ | ⟨-, rfl⟩ := h'
    rfl

lemma Load.saidBy_unique {load load' : Load} (h : load.SaidBy value) (h' : load'.SaidBy value) :
    load = load' :=
  Load.ext (Value.number.inj (h.2.1.symm.trans h'.2.1)) (Value.number.inj (h.2.2.symm.trans h'.2.2))

lemma Peer.saidBy_unique {peer peer' : Peer} (h : peer.SaidBy value) (h' : peer'.SaidBy value) :
    peer = peer' :=
  Peer.ext (Subtype.ext (Value.string.inj (h.2.1.symm.trans h'.2.1)))
    (Load.saidBy_unique h.2.2 h'.2.2)

lemma DirectiveKind.text_inj {kind kind' : DirectiveKind} (h : kind.text = kind'.text) :
    kind = kind' := by
  have hkind := DirectiveKind.ofText?_eq_some.mpr h
  rw [DirectiveKind.ofText?_eq_some.mpr rfl, Option.some.injEq] at hkind
  exact hkind

variable {d d' : Directive} {f : α → α}

lemma Directive.SaidBy.kind (h : d.SaidBy value) :
    value = .string d.kind.text ∨ isRecord value ∧ value.get "type" = .string d.kind.text := by
  cases d with
  | inherit | block => exact h
  | remap | source | facade => exact .inr ⟨h.1, h.2.1⟩

/-- The word or the type of a directive says which kind it is. -/
lemma Directive.kind_unique (h : d.SaidBy value) (h' : d'.SaidBy value) : d.kind = d'.kind := by
  obtain rfl | ⟨hrecord, htype⟩ := h.kind
  · obtain htext | ⟨⟨⟩, -⟩ := h'.kind
    exact DirectiveKind.text_inj (Value.string.inj htext)
  · obtain rfl | ⟨-, htype'⟩ := h'.kind
    · cases hrecord
    · exact DirectiveKind.text_inj (Value.string.inj (htype.symm.trans htype'))

/-- An object says at most one directive, short or long. -/
lemma Directive.saidBy_unique (h : d.SaidBy value) (h' : d'.SaidBy value) : d = d' := by
  have hkind := Directive.kind_unique h h'
  cases d with
  | inherit =>
    cases d' with
    | inherit => rfl
    | _ => cases hkind
  | block =>
    cases d' with
    | block => rfl
    | _ => cases hkind
  | remap target =>
    cases d' with
    | remap target' =>
      rw [Value.string.inj (h.2.2.symm.trans h'.2.2)]
    | _ => cases hkind
  | source code sourceMap =>
    cases d' with
    | source code' sourceMap' =>
      obtain ⟨-, -, hcode, hmap⟩ := h
      obtain ⟨-, -, hcode', hmap'⟩ := h'
      rw [Value.string.inj (hcode.symm.trans hcode'), Value.string.inj (hmap.symm.trans hmap')]
    | _ => cases hkind
  | facade specifier exported streams sinks =>
    cases d' with
    | facade specifier' exported' streams' sinks' =>
      obtain ⟨-, -, hspecifier, hexported, hstreams, hsinks⟩ := h
      obtain ⟨-, -, hspecifier', hexported', hstreams', hsinks'⟩ := h'
      rw [Value.string.inj (hspecifier.symm.trans hspecifier'),
        textArray_inj (hexported.symm.trans hexported'),
        Directive.listSaidBy_unique hstreams hstreams', Directive.listSaidBy_unique hsinks hsinks']
    | _ => cases hkind

lemma Rule.saidBy_unique {rule rule' : Rule} (h : rule.SaidBy value) (h' : rule'.SaidBy value) :
    rule = rule' := by
  obtain ⟨-, horigin, hpattern, hdirective⟩ := h
  obtain ⟨-, horigin', hpattern', hdirective'⟩ := h'
  rw [Rule.mk.injEq]
  exact ⟨optionalText_inj (horigin.symm.trans horigin'),
    Value.string.inj (hpattern.symm.trans hpattern'),
    Directive.saidBy_unique hdirective hdirective'⟩

lemma CliOtel.saidBy_unique {x y : CliOtel} (hx : x.SaidBy value) (hy : y.SaidBy value) :
    x = y := by
  obtain ⟨-, hendpoint, hscript, hdebug⟩ := hx
  obtain ⟨-, hendpoint', hscript', hdebug'⟩ := hy
  rw [CliOtel.mk.injEq]
  exact ⟨optionalText_inj (hendpoint.symm.trans hendpoint'),
    optionalText_inj (hscript.symm.trans hscript'),
    optional_inj (fun _ => by simp) (fun _ _ => Value.bool.inj) (hdebug.symm.trans hdebug')⟩

lemma BootstrapData.saidBy_unique {x y : BootstrapData} (hx : x.SaidBy value)
    (hy : y.SaidBy value) : x = y := by
  rw [BootstrapData.mk.injEq]
  exact optionSaidBy_unique (fun _ h => Bool.false_ne_true h.1)
    (fun _ _ => CliOtel.saidBy_unique) hx.2 hy.2

lemma SpawnConfig.saidBy_unique {x y : SpawnConfig} (hx : x.SaidBy value) (hy : y.SaidBy value) :
    x = y := by
  obtain ⟨-, hentry, hroot, hrules, hdata⟩ := hx
  obtain ⟨-, hentry', hroot', hrules', hdata'⟩ := hy
  rw [SpawnConfig.mk.injEq]
  exact ⟨Value.string.inj (hentry.symm.trans hentry'), Value.string.inj (hroot.symm.trans hroot'),
    listSaidBy_unique Rule.SaidBy (fun _ _ _ h h' => Rule.saidBy_unique h h') hrules hrules',
    optionSaidBy_unique (fun _ h => Bool.false_ne_true h.1)
      (fun _ _ => BootstrapData.saidBy_unique) hdata hdata'⟩

lemma childText_inj {id id' : Option ClusterId} (h : childText id = childText id') :
    id = id' := by
  have hne (id : ClusterId) : (id : String) ≠ "" := by
    obtain ⟨s, node, part, hs, -⟩ := id
    rintro rfl
    exact absurd hs.symm (by simp)
  cases id with
  | none =>
    cases id' with
    | none => rfl
    | some id' => exact absurd h.symm (hne id')
  | some id =>
    cases id' with
    | none => exact absurd h (hne id)
    | some id' => rw [Subtype.ext h]

/-- A number says at most one integer, as `-0` is zero. -/
lemma numberSaidBy_unique {n n' : ℕ} (h : NumberSaidBy value n) (h' : NumberSaidBy value n') :
    n = n' := by
  obtain ⟨x, rfl, hx⟩ := h
  obtain ⟨_, ⟨⟩, hx'⟩ := h'
  rw [hx, Option.some.injEq] at hx'
  exact Int.ofNat_inj.mp hx'

lemma sequence_ext {allowZero : Bool} {n n' : Sequence allowZero} (h : n.number = n'.number) :
    n = n' := by
  obtain ⟨number', _, _⟩ := n'
  obtain rfl := h
  rfl

lemma MessageKind.text_inj {kind kind' : MessageKind} (h : kind.text = kind'.text) :
    kind = kind' := by
  have hkind := MessageKind.ofText?_eq_some.mpr (congrArg Value.string h)
  rw [MessageKind.ofText?_eq_some.mpr rfl, Option.some.injEq] at hkind
  exact hkind

/-- The kind decides which properties are looked at, and these decide the content. -/
lemma Content.saidBy_unique {msg : Value} {c c' : Content} (h : c.SaidBy msg)
    (h' : c'.SaidBy msg) : c = c' := by
  have hkind := MessageKind.text_inj (Value.string.inj (h.1.symm.trans h'.1))
  have htext {s s' key : String} (h : msg.get key = .string s) (h' : msg.get key = .string s') :
      s = s' := Value.string.inj (h.symm.trans h')
  replace h := h.2
  replace h' := h'.2
  cases c with
  | hello nodeId load =>
    cases c' with
    | hello nodeId' load' =>
      rw [Subtype.ext (htext h.1 h'.1), Load.saidBy_unique h.2 h'.2]
    | _ => cases hkind
  | welcome nodeId peers =>
    cases c' with
    | welcome nodeId' peers' =>
      rw [Subtype.ext (htext h.1 h'.1),
        listSaidBy_unique Peer.SaidBy (fun _ _ _ h h' => Peer.saidBy_unique h h') h.2 h'.2]
    | _ => cases hkind
  | peerUp peer =>
    cases c' with
    | peerUp peer' => rw [Peer.saidBy_unique h h']
    | _ => cases hkind
  | peerDown nodeId =>
    cases c' with
    | peerDown nodeId' => rw [Subtype.ext (htext h h')]
    | _ => cases hkind
  | heartbeat ts =>
    cases c' with
    | heartbeat ts' => rw [Subtype.ext (Value.number.inj (Eq.trans (Eq.symm h) h'))]
    | _ => cases hkind
  | spawn spawnReqId parentPortId config =>
    cases c' with
    | spawn spawnReqId' parentPortId' config' =>
      rw [Subtype.ext (htext h.1 h'.1), Subtype.ext (htext h.2.1 h'.2.1),
        SpawnConfig.saidBy_unique h.2.2 h'.2.2]
    | _ => cases hkind
  | spawnAck spawnReqId childPortId ok error =>
    cases c' with
    | spawnAck spawnReqId' childPortId' ok' error' =>
      obtain ⟨hreq, hchild, hok, herror⟩ := h
      obtain ⟨hreq', hchild', hok', herror'⟩ := h'
      rw [Subtype.ext (htext hreq hreq'), childText_inj (htext hchild hchild'),
        Value.bool.inj (hok.symm.trans hok'), optionalText_inj (herror.symm.trans herror')]
    | _ => cases hkind
  | realmExit realmId lastPortSeq error =>
    cases c' with
    | realmExit realmId' lastPortSeq' error' =>
      obtain ⟨hrealm, hseq, herror⟩ := h
      obtain ⟨hrealm', hseq', herror'⟩ := h'
      rw [Subtype.ext (htext hrealm hrealm'), sequence_ext (numberSaidBy_unique hseq hseq'),
        optionalText_inj (herror.symm.trans herror')]
    | _ => cases hkind
  | terminate realmId =>
    cases c' with
    | terminate realmId' => rw [Subtype.ext (htext h h')]
    | _ => cases hkind
  | portMsg fromPort toPort payload seq payloadFormat =>
    cases c' with
    | portMsg fromPort' toPort' payload' seq' payloadFormat' =>
      obtain ⟨hfrom, hto, hpayload, hseq, hformat⟩ := h
      obtain ⟨hfrom', hto', hpayload', hseq', hformat'⟩ := h'
      have hundefined (n : Fin (2 ^ 32)) : ¬ NumberSaidBy .undefined n := by
        rintro ⟨x, ⟨⟩, -⟩
      rw [Subtype.ext (htext hfrom hfrom'), Subtype.ext (htext hto hto'),
        map_inj (fun _ _ => Value.bytes.inj) (hpayload.symm.trans hpayload'),
        sequence_ext (numberSaidBy_unique hseq hseq'), optionSaidBy_unique hundefined
          (fun _ _ h h' => Fin.ext (numberSaidBy_unique h h')) hformat hformat']
    | _ => cases hkind

/-! ## The object that says it -/

/-- The value of a directive says it. -/
lemma Directive.saidBy_value (d : Directive) : d.SaidBy d.value := by
  have hlist (l : List String) : Directive.ListSaidBy l (ifNotEmpty (textArray l)) := by
    cases l with
    | nil => exact .inr ⟨rfl, rfl⟩
    | cons s l => exact .inl rfl
  cases d with
  | inherit | block => exact .inr ⟨rfl, rfl⟩
  | remap target => exact ⟨rfl, rfl, rfl⟩
  | source code sourceMap => exact ⟨rfl, rfl, rfl, rfl⟩
  | facade specifier exported streams sinks =>
    exact ⟨rfl, rfl, rfl, rfl, hlist streams, hlist sinks⟩

lemma optionSaidBy_optional {value : α → Value} (h : ∀ x, saidBy (value x) x)
    (x : Option α) : OptionSaidBy saidBy (optional value x) x := by
  cases x with
  | none => rfl
  | some x => exact h x

lemma listSaidBy_map {value : α → Value} (h : ∀ x, saidBy (value x) x)
    (l : List α) : ListSaidBy saidBy (.array (l.map value)) l := by
  refine ⟨_, rfl, ?_⟩
  rw [forall₂_map_left_iff, forall₂_same]
  exact fun x _ => h x

lemma SpawnConfig.saidBy_value (config : SpawnConfig) : config.SaidBy config.value := by
  have hcliOtel (x : CliOtel) : x.SaidBy x.object := ⟨rfl, rfl, rfl, rfl⟩
  have hdata (x : BootstrapData) : x.SaidBy x.object := ⟨rfl, optionSaidBy_optional hcliOtel _⟩
  have hrule (x : Rule) : x.SaidBy x.value := ⟨rfl, rfl, rfl, x.directive.saidBy_value⟩
  exact ⟨rfl, rfl, rfl, listSaidBy_map hrule _, optionSaidBy_optional hdata _⟩

lemma numberSaidBy_numeral {n : ℕ} (h : n < 2 ^ 53) : NumberSaidBy (numeral n) n :=
  ⟨_, rfl, Double.toInt?_ofInt (by omega)⟩

/-- Every content is said by some object. -/
lemma Content.saidBy_value (content : Content) : content.SaidBy content.value := by
  have hpeer (peer : Peer) : peer.SaidBy peer.object := Peer.saidBy_object.mpr rfl
  have hsequence {allowZero : Bool} (n : Sequence allowZero) :
      NumberSaidBy (numeral n.number) n.number :=
    numberSaidBy_numeral (Nat.lt_of_le_of_lt n.safe (by decide))
  cases content with
  | hello nodeId load | spawnAck spawnReqId childPortId ok error => exact ⟨rfl, rfl, rfl, rfl, rfl⟩
  | welcome nodeId peers => exact ⟨rfl, rfl, listSaidBy_map hpeer peers⟩
  | peerUp peer => exact ⟨rfl, hpeer peer⟩
  | peerDown nodeId | heartbeat ts | terminate realmId => exact ⟨rfl, rfl⟩
  | spawn spawnReqId parentPortId config => exact ⟨rfl, rfl, rfl, config.saidBy_value⟩
  | realmExit realmId lastPortSeq error => exact ⟨rfl, rfl, hsequence lastPortSeq, rfl⟩
  | portMsg fromPort toPort payload seq payloadFormat =>
    refine ⟨rfl, rfl, rfl, rfl, hsequence seq, ?_⟩
    refine optionSaidBy_optional (fun n : Fin (2 ^ 32) => ?_) payloadFormat
    exact numberSaidBy_numeral (Nat.lt_trans n.2 (by decide))

/-- Two contents with one object are the same. -/
lemma Content.value_inj {c c' : Content} : c.value = c'.value ↔ c = c' := by
  constructor
  · intro h
    exact saidBy_unique c.saidBy_value (h ▸ c'.saidBy_value)
  · rintro rfl
    rfl

lemma optionMap_eq_self {x : Option α} : x.map f = x ↔ ∀ y ∈ x.toList, f y = y := by
  cases x with
  | none => simp
  | some x => simp

lemma listMap_eq_self {l : List α} : l.map f = l ↔ ∀ x ∈ l, f x = x := by
  conv_lhs => rw [← map_id l, map_map]
  exact map_inj_left

variable {f : String → String}

lemma Directive.map_eq_self : d.map f = d ↔ ∀ s ∈ d.texts, f s = s := by
  cases d with
  | inherit | block | remap target | source code sourceMap => simp [Directive.map, Directive.texts]
  | facade specifier exported streams sinks =>
    simp only [Directive.map, Directive.texts, Directive.facade.injEq, listMap_eq_self,
      cons_append, forall_mem_cons, forall_mem_append, and_assoc]

lemma Rule.map_eq_self {rule : Rule} : rule.map f = rule ↔ ∀ s ∈ rule.texts, f s = s := by
  obtain ⟨origin, pattern, directive⟩ := rule
  simp only [Rule.map, Rule.texts, Rule.mk.injEq, optionMap_eq_self, Directive.map_eq_self,
    forall_mem_append, forall_mem_cons]

lemma CliOtel.map_eq_self {x : CliOtel} : x.map f = x ↔ ∀ s ∈ x.texts, f s = s := by
  obtain ⟨endpoint, script, debug⟩ := x
  simp only [CliOtel.map, CliOtel.texts, CliOtel.mk.injEq, optionMap_eq_self, and_true,
    forall_mem_append]

lemma BootstrapData.map_eq_self {x : BootstrapData} : x.map f = x ↔ ∀ s ∈ x.texts, f s = s := by
  obtain ⟨cliOtel⟩ := x
  simp only [BootstrapData.map, BootstrapData.texts, BootstrapData.mk.injEq, optionMap_eq_self,
    CliOtel.map_eq_self, forall_mem_flatMap]

lemma SpawnConfig.map_eq_self {config : SpawnConfig} :
    config.map f = config ↔ ∀ s ∈ config.texts, f s = s := by
  obtain ⟨entry, root, rules, data⟩ := config
  simp only [SpawnConfig.map, SpawnConfig.texts, SpawnConfig.mk.injEq, listMap_eq_self,
    Rule.map_eq_self, optionMap_eq_self, BootstrapData.map_eq_self, cons_append,
    forall_mem_cons, forall_mem_append, forall_mem_flatMap]

/-- A change of the free texts that leaves each alone leaves the content alone. -/
lemma Content.map_eq_self {content : Content} :
    content.map f = content ↔ ∀ s ∈ content.texts, f s = s := by
  cases content with
  | spawn spawnReqId parentPortId config =>
    simp only [map, texts, spawn.injEq, true_and, SpawnConfig.map_eq_self]
  | spawnAck spawnReqId childPortId ok error =>
    simp only [map, texts, spawnAck.injEq, true_and, optionMap_eq_self]
  | realmExit realmId lastPortSeq error =>
    simp only [map, texts, realmExit.injEq, true_and, optionMap_eq_self]
  | _ => simp [map, texts]

end Fino.Cluster.Codec
