import Fino.Cluster.ToWire
import Fino.Protobuf.Records

/-!
# Which messages are decoded

`fromWire` rebuilds the message that a wire object was built for (`fromWire_wire`). For any other
object it fails or returns the object of some content (`exists_content_of_fromWire`).
-/

namespace Fino.Cluster.Codec

open Lib Lib.Outcome Protobuf

/-! ## From the wire that was written -/

variable {key : String} {value w : Value}

lemma requiredWireString_eq_ok :
    requiredWireString value key = .ok w ↔ ¬ value.isUndefined ∧ value = w := by
  rw [requiredWireString, ite_error_eq_ok, Except.ok.injEq]

lemma MessageKind.ofNumber?_number (kind : MessageKind) :
    ofNumber? (.number (.ofInt kind.number)) = some kind := by
  cases kind <;> decide +kernel

lemma DirectiveKind.ofNumber?_number (kind : DirectiveKind) :
    ofNumber? (.number (.ofInt kind.number)) = some kind := by
  cases kind <;> decide +kernel

/-- A directive that was written is read as its value. -/
lemma decodeDirective_wire (d : Directive) : decodeDirective d.wire = .ok d.value := by
  have hkind : DirectiveKind.ofNumber? (d.wire.get "kind") = some d.kind := by
    cases d <;> exact DirectiveKind.ofNumber?_number _
  unfold decodeDirective
  rw [hkind]
  cases d <;> rfl

lemma decodeRule_wire (rule : Rule) : decodeRule rule.wire = .ok rule.value := by
  have hdirective : ¬ (rule.wire.get "directive").isUndefined := by
    cases rule.directive <;> exact Bool.false_ne_true
  exact bind_eq_ok.mpr ⟨_, requiredWireString_eq_ok.mpr ⟨Bool.false_ne_true, rfl⟩,
    bind_eq_ok.mpr ⟨_, decodeDirective_wire rule.directive, rfl⟩⟩

lemma decodeSpawnConfig_wire (config : SpawnConfig) :
    decodeSpawnConfig config.wire = .ok config.value := by
  have hrules : (config.rules.map Rule.wire).mapM decodeRule =
      .ok (config.rules.map Rule.value) := by
    rw [mapM_eq_ok, List.forall₂_map_left_iff, List.forall₂_map_right_iff, List.forall₂_same]
    exact fun rule _ => decodeRule_wire rule
  exact bind_eq_ok.mpr ⟨_, requiredWireString_eq_ok.mpr ⟨Bool.false_ne_true, rfl⟩,
    bind_eq_ok.mpr ⟨_, requiredWireString_eq_ok.mpr ⟨Bool.false_ne_true, rfl⟩,
    bind_eq_ok.mpr ⟨_, hrules, rfl⟩⟩⟩

variable {allowZero : Bool}

lemma decodeSequence_number (n : Sequence allowZero) (key : String) :
    decodeSequence (.bigint n.number) key allowZero = .ok (numeral n.number) := by
  have hlt : (n.number : ℤ).natAbs < 2 ^ 53 := Nat.lt_of_le_of_lt n.safe (by decide)
  refine ite_error_eq_ok.mpr ⟨not_lt.mpr (Int.ofNat_le.mpr n.safe), ?_⟩
  refine map_eq_ok.mpr ⟨_, requireSequence_eq_ok.mpr ⟨get_singleton _ _, _,
    Double.toInt?_ofInt hlt, ?_⟩, rfl⟩
  have hleast := n.least
  split_ifs at hleast ⊢ <;> omega

/-- What was put on the wire for a content is decoded to the object that says it. -/
lemma fromWire_wire (content : Content) :
    fromWire (content.wire content.format) = .ok content.value := by
  have hkind : MessageKind.ofNumber? ((content.wire content.format).get "kind") =
      some content.kind := MessageKind.ofNumber?_number _
  have htext {s key : String} : requiredWireString (.string s) key = .ok (.string s) := rfl
  unfold fromWire
  rw [hkind]
  cases content with
  | hello nodeId load =>
    exact bind_eq_ok.mpr ⟨_, htext, bind_eq_ok.mpr ⟨_, parseNodeId_eq_ok.mpr ⟨rfl, nodeId.2⟩,
      bind_eq_ok.mpr ⟨_, parseLoad_eq_ok.mpr ⟨load, ⟨rfl, rfl, rfl⟩, rfl⟩, rfl⟩⟩⟩
  | welcome nodeId peers =>
    refine bind_eq_ok.mpr ⟨_, htext, bind_eq_ok.mpr ⟨_, parseNodeId_eq_ok.mpr ⟨rfl, nodeId.2⟩,
      bind_eq_ok.mpr ⟨_, parsePeerItems_eq_ok.mpr ⟨peers, ?_, rfl⟩, rfl⟩⟩⟩
    show List.Forall₂ _ (peers.map Peer.object) peers
    rw [List.forall₂_map_left_iff, List.forall₂_same]
    exact fun peer _ => Peer.saidBy_object.mpr rfl
  | peerUp peer =>
    exact bind_eq_ok.mpr ⟨_, parsePeer_eq_ok.mpr ⟨peer, Peer.saidBy_object.mpr rfl, rfl⟩, rfl⟩
  | peerDown nodeId =>
    exact bind_eq_ok.mpr ⟨_, htext, bind_eq_ok.mpr ⟨_, parseNodeId_eq_ok.mpr ⟨rfl, nodeId.2⟩, rfl⟩⟩
  | heartbeat ts =>
    exact bind_eq_ok.mpr ⟨_, requireFiniteNumber_eq_ok.mpr ⟨rfl, ts.2⟩, rfl⟩
  | spawn spawnReqId parentPortId config =>
    exact bind_eq_ok.mpr ⟨_, htext, bind_eq_ok.mpr
      ⟨_, parseHandleId_eq_ok.mpr ⟨rfl, spawnReqId.2⟩, bind_eq_ok.mpr ⟨_, htext, bind_eq_ok.mpr
      ⟨_, parseClusterId_eq_ok.mpr ⟨rfl, parentPortId.2⟩, bind_eq_ok.mpr
      ⟨_, decodeSpawnConfig_wire config, rfl⟩⟩⟩⟩⟩
  | spawnAck spawnReqId childPortId ok error =>
    refine bind_eq_ok.mpr ⟨_, htext, ite_error_eq_ok.mpr ⟨Bool.false_ne_true, ?_⟩⟩
    exact bind_eq_ok.mpr ⟨_, htext, bind_eq_ok.mpr
      ⟨_, parseHandleId_eq_ok.mpr ⟨rfl, spawnReqId.2⟩, bind_eq_ok.mpr
      ⟨_, parseChildPortId_eq_ok.mpr ⟨childPortId, rfl, rfl⟩, rfl⟩⟩⟩
  | realmExit realmId lastPortSeq error =>
    exact bind_eq_ok.mpr ⟨_, htext, bind_eq_ok.mpr
      ⟨_, parseClusterId_eq_ok.mpr ⟨rfl, realmId.2⟩, bind_eq_ok.mpr
      ⟨_, decodeSequence_number lastPortSeq _, rfl⟩⟩⟩
  | terminate realmId =>
    exact bind_eq_ok.mpr ⟨_, htext, bind_eq_ok.mpr
      ⟨_, parseClusterId_eq_ok.mpr ⟨rfl, realmId.2⟩, rfl⟩⟩
  | portMsg fromPort toPort payload seq payloadFormat =>
    exact bind_eq_ok.mpr ⟨_, htext, bind_eq_ok.mpr
      ⟨_, parseClusterId_eq_ok.mpr ⟨rfl, fromPort.2⟩, bind_eq_ok.mpr ⟨_, htext, bind_eq_ok.mpr
      ⟨_, parseClusterId_eq_ok.mpr ⟨rfl, toPort.2⟩, bind_eq_ok.mpr
      ⟨_, decodeSequence_number seq _, rfl⟩⟩⟩⟩⟩

/-! ## From any other wire -/

/-- A number that passes the check is that of a sequence. -/
lemma exists_sequence (htyped : value = .undefined ∨ decoded.leaf .uint64 value)
    (h : decodeSequence value key allowZero = .ok w) :
    ∃ n : Sequence allowZero, w = numeral n.number := by
  obtain rfl | ⟨⟨z, rfl, hz, -⟩, -⟩ := htyped
  · cases h
  · obtain ⟨hsafe, h⟩ := ite_error_eq_ok.mp h
    obtain ⟨x, hx, rfl⟩ := map_eq_ok.mp h
    obtain ⟨hget, z', hz', hle⟩ := requireSequence_eq_ok.mp hx
    rw [get_singleton, Value.number.injEq] at hget
    have hlt : z.natAbs < 2 ^ 53 := by
      unfold maxSafeInteger at hsafe
      omega
    rw [← hget, Double.toInt?_ofInt hlt, Option.some.injEq] at hz'
    lift z to ℕ using hz
    refine ⟨⟨z, Int.ofNat_le.mp (not_lt.mp hsafe), ?_⟩, by rw [← hget]; rfl⟩
    split_ifs at hle ⊢ <;> omega

variable {fields : List Field}

lemma ofType_repeatedField {rules : Rules} (h : rules.ofType (.message fields) value)
    {name : String} {number : ℕ} {type : FieldType}
    (hfield : repeatedField name number type ∈ fields) :
    ∃ items, value.get name = .array items ∧ ∀ item ∈ items, rules.ofType type item :=
  (Rules.ofFields_iff _).mp h.2 _ hfield

/-- Items that each are the value of something are the values of a list. -/
lemma exists_map_eq {α : Type} {f : α → Value} {items : List Value}
    (h : ∀ item ∈ items, ∃ x, item = f x) : ∃ l : List α, items = l.map f := by
  induction items with
  | nil => exact ⟨[], rfl⟩
  | cons item items ih =>
    obtain ⟨⟨x, rfl⟩, htail⟩ := List.forall_mem_cons.mp h
    obtain ⟨l, rfl⟩ := ih htail
    exact ⟨x :: l, rfl⟩

section

variable (h : decoded.ofType (.message fields) value)

include h

variable (name : String) (n : ℕ)

lemma exists_textArray (hfield : repeatedField name n (.scalar .string) ∈ fields) :
    ∃ l, value.get name = textArray l := by
  obtain ⟨items, hitems, hall⟩ := ofType_repeatedField h hfield
  obtain ⟨l, rfl⟩ := exists_map_eq fun item hitem => (hall item hitem).1
  exact ⟨l, hitems⟩

lemma exists_text (hfield : optionalField name n (.scalar .string) ∈ fields) :
    ∃ x, value.get name = optional .string x :=
  optionSaidBy_string ((ofType_optionalField h hfield).imp_right And.left)

lemma exists_bool (hfield : optionalField name n (.scalar .bool) ∈ fields) :
    ∃ x, value.get name = optional .bool x := by
  obtain h | ⟨⟨b, h⟩, -⟩ := ofType_optionalField h hfield
  · exact ⟨none, h⟩
  · exact ⟨some b, h⟩

/-- A text that is required is there, and is returned as it is. -/
lemma exists_requiredText (hfield : optionalField name n (.scalar .string) ∈ fields)
    (hrequired : requiredWireString (value.get name) key = .ok w) :
    ∃ s, value.get name = .string s ∧ w = .string s := by
  obtain ⟨hundefined, rfl⟩ := requiredWireString_eq_ok.mp hrequired
  obtain ⟨x, hx⟩ := exists_text h name n hfield
  cases x with
  | none =>
    rw [hx] at hundefined
    exact absurd rfl hundefined
  | some s => exact ⟨s, hx, hx⟩

end

lemma exists_uint32 (h : value = .undefined ∨ decoded.leaf .uint32 value) :
    ∃ x : Option (Fin (2 ^ 32)), value = optional formatNumeral x := by
  obtain h | ⟨⟨x, z, rfl, hz, hmin, hmax⟩, hzero⟩ := h
  · exact ⟨none, h⟩
  · refine ⟨some ⟨z.toNat, by omega⟩, congrArg Value.number ?_⟩
    rw [Int.toNat_of_nonneg hmin]
    exact Double.eq_ofInt hz (by omega) (hzero (by decide) x rfl)

/-- Whatever `decodeDirective` returns is the value of a directive. -/
lemma exists_directive (h : decoded.ofType (.message directiveMessage) value)
    (hdecode : decodeDirective value = .ok w) : ∃ d : Directive, w = d.value := by
  unfold decodeDirective at hdecode
  split at hdecode
  next => exact ⟨.inherit, (pure_eq_ok.mp hdecode).symm⟩
  next => exact ⟨.block, (pure_eq_ok.mp hdecode).symm⟩
  next =>
    obtain ⟨_, htarget, hw⟩ := bind_eq_ok.mp hdecode
    obtain ⟨target, -, rfl⟩ := exists_requiredText h "target" 2 (by simp [directiveMessage]) htarget
    exact ⟨.remap target, (pure_eq_ok.mp hw).symm⟩
  next =>
    obtain ⟨_, hcode, hrest⟩ := bind_eq_ok.mp hdecode
    obtain ⟨_, hmap, hw⟩ := bind_eq_ok.mp hrest
    obtain ⟨code, -, rfl⟩ := exists_requiredText h "code" 3 (by simp [directiveMessage]) hcode
    obtain ⟨sourceMap, -, rfl⟩ :=
      exists_requiredText h "sourceMap" 4 (by simp [directiveMessage]) hmap
    exact ⟨.source code sourceMap, (pure_eq_ok.mp hw).symm⟩
  next =>
    obtain ⟨_, hspecifier, hw⟩ := bind_eq_ok.mp hdecode
    obtain ⟨specifier, -, rfl⟩ :=
      exists_requiredText h "specifier" 5 (by simp [directiveMessage]) hspecifier
    obtain ⟨exported, hexported⟩ := exists_textArray h "exports" 6 (by simp [directiveMessage])
    obtain ⟨streams, hstreams⟩ := exists_textArray h "streams" 7 (by simp [directiveMessage])
    obtain ⟨sinks, hsinks⟩ := exists_textArray h "sinks" 8 (by simp [directiveMessage])
    rw [hexported, hstreams, hsinks] at hw
    exact ⟨.facade specifier exported streams sinks, (pure_eq_ok.mp hw).symm⟩
  next => cases hdecode

/-- Whatever `decodeRule` returns is the value of a rule. -/
lemma exists_rule (h : decoded.ofType (.message ruleMessage) value)
    (hdecode : decodeRule value = .ok w) : ∃ rule : Rule, w = rule.value := by
  have hfield : optionalField "directive" 3 (.message directiveMessage) ∈ ruleMessage := by
    simp [ruleMessage]
  obtain ⟨hpresent, hdecode⟩ := ite_error_eq_ok.mp hdecode
  obtain ⟨_, hpattern, hrest⟩ := bind_eq_ok.mp hdecode
  obtain ⟨_, hdirective, hw⟩ := bind_eq_ok.mp hrest
  obtain ⟨pattern, -, rfl⟩ := exists_requiredText h "pattern" 2 (by simp [ruleMessage]) hpattern
  obtain ⟨origin, horigin⟩ := exists_text h "from" 1 (by simp [ruleMessage])
  obtain hundefined | hvalue := ofType_optionalField h hfield
  · rw [hundefined] at hpresent
    exact absurd rfl hpresent
  · obtain ⟨directive, rfl⟩ := exists_directive hvalue hdirective
    rw [horigin] at hw
    exact ⟨⟨origin, pattern, directive⟩, (pure_eq_ok.mp hw).symm⟩

/-- A decoded message is the object of its fields. -/
lemma eq_ofProperties_of_decoded (hnames : (fields.map (·.1.name)).Nodup)
    (h : decoded.ofType (.message fields) value) :
    value = .ofProperties (fields.map fun field => (field.1.name, value.get field.1.name)) := by
  obtain ⟨⟨get, rfl, hget⟩, -⟩ := h
  exact (object_eq_ofProperties hnames hget).mpr fun _ _ => rfl

lemma exists_cliOtel (h : decoded.ofType (.message cliOtelMessage) value) :
    ∃ cliOtel : CliOtel, value = cliOtel.object := by
  obtain ⟨endpoint, hendpoint⟩ := exists_text h "endpoint" 1 (by simp [cliOtelMessage])
  obtain ⟨script, hscript⟩ := exists_text h "script" 2 (by simp [cliOtelMessage])
  obtain ⟨debug, hdebug⟩ := exists_bool h "debug" 3 (by simp [cliOtelMessage])
  refine ⟨⟨endpoint, script, debug⟩, ?_⟩
  rw [CliOtel.object, ← hendpoint, ← hscript, ← hdebug]
  exact eq_ofProperties_of_decoded (by decide) h

lemma exists_bootstrapData (h : decoded.ofType (.message bootstrapDataMessage) value) :
    ∃ data : BootstrapData, value = data.object := by
  have hfield : optionalField "cliOtel" 1 (.message cliOtelMessage) ∈ bootstrapDataMessage := by
    simp [bootstrapDataMessage]
  have hobject := eq_ofProperties_of_decoded (by decide) h
  obtain hundefined | hvalue := ofType_optionalField h hfield
  · refine ⟨⟨none⟩, ?_⟩
    rw [BootstrapData.object, optional, ← hundefined]
    exact hobject
  · obtain ⟨cliOtel, hcliOtel⟩ := exists_cliOtel hvalue
    refine ⟨⟨some cliOtel⟩, ?_⟩
    rw [BootstrapData.object, optional, ← hcliOtel]
    exact hobject

/-- Whatever `decodeSpawnConfig` returns is the value of a configuration. -/
lemma exists_spawnConfig (h : decoded.ofType (.message spawnConfigMessage) value)
    (hdecode : decodeSpawnConfig value = .ok w) : ∃ config : SpawnConfig, w = config.value := by
  have hdataField : optionalField "bootstrapData" 4 (.message bootstrapDataMessage) ∈
      spawnConfigMessage := by simp [spawnConfigMessage]
  have hrulesField : repeatedField "rules" 3 (.message ruleMessage) ∈ spawnConfigMessage := by
    simp [spawnConfigMessage]
  obtain ⟨_, hentry, hrest⟩ := bind_eq_ok.mp hdecode
  obtain ⟨_, hroot, hrest⟩ := bind_eq_ok.mp hrest
  obtain ⟨rules, hrules, hw⟩ := bind_eq_ok.mp hrest
  obtain ⟨entry, -, rfl⟩ := exists_requiredText h "entry" 1 (by simp [spawnConfigMessage]) hentry
  obtain ⟨root, -, rfl⟩ := exists_requiredText h "root" 2 (by simp [spawnConfigMessage]) hroot
  obtain ⟨wires, hwires, hall⟩ := ofType_repeatedField h hrulesField
  rw [hwires] at hrules
  have hexists : ∀ rule ∈ rules, ∃ r : Rule, rule = r.value := by
    intro rule hrule
    obtain ⟨wire, hwire, hdecode⟩ := exists_of_mem_mapM hrules hrule
    exact exists_rule (hall wire hwire) hdecode
  obtain ⟨rules, rfl⟩ := exists_map_eq hexists
  obtain ⟨data, hdata⟩ :
      ∃ data, value.get "bootstrapData" = optional BootstrapData.object data := by
    obtain hundefined | hvalue := ofType_optionalField h hdataField
    · exact ⟨none, hundefined⟩
    · obtain ⟨data, hdata⟩ := exists_bootstrapData hvalue
      exact ⟨some data, hdata⟩
  rw [hdata] at hw
  exact ⟨⟨entry, root, rules, data⟩, (pure_eq_ok.mp hw).symm⟩

/-- Whatever `fromWire` returns is the value of a content. -/
lemma exists_content_of_fromWire {msg : Value}
    (h : decoded.ofType (.message envelopeMessage) value) (hdecode : fromWire value = .ok msg) :
    ∃ content : Content, msg = content.value := by
  unfold fromWire at hdecode
  -- A decoder that succeeds has succeeded in each of its steps.
  split at hdecode <;>
    simp only [bind_eq_ok, ite_error_eq_ok, pure_eq_ok, reduceCtorEq] at hdecode
  next =>
    obtain ⟨_, -, nodeId, hnodeId, _, hload, rfl⟩ := hdecode
    obtain ⟨load, -, rfl⟩ := parseLoad_eq_ok.mp hload
    exact ⟨.hello ⟨nodeId, (parseNodeId_eq_ok.mp hnodeId).2⟩ load, rfl⟩
  next =>
    obtain ⟨_, -, nodeId, hnodeId, _, hpeers, rfl⟩ := hdecode
    obtain ⟨peers, -, rfl⟩ := parsePeerItems_eq_ok.mp hpeers
    exact ⟨.welcome ⟨nodeId, (parseNodeId_eq_ok.mp hnodeId).2⟩ peers, rfl⟩
  next =>
    obtain ⟨-, _, hpeer, rfl⟩ := hdecode
    obtain ⟨peer, -, rfl⟩ := parsePeer_eq_ok.mp hpeer
    exact ⟨.peerUp peer, rfl⟩
  next =>
    obtain ⟨_, -, nodeId, hnodeId, rfl⟩ := hdecode
    exact ⟨.peerDown ⟨nodeId, (parseNodeId_eq_ok.mp hnodeId).2⟩, rfl⟩
  next =>
    obtain ⟨-, ts, hts, rfl⟩ := hdecode
    exact ⟨.heartbeat ⟨ts, (requireFiniteNumber_eq_ok.mp hts).2⟩, rfl⟩
  next =>
    have hfield : optionalField "config" 9 (.message spawnConfigMessage) ∈ envelopeMessage := by
      simp [envelopeMessage]
    obtain ⟨hpresent, _, -, spawnReqId, hreq, _, -, parentPortId, hport, _, hconfig, rfl⟩ := hdecode
    obtain hundefined | hvalue := ofType_optionalField h hfield
    · rw [hundefined] at hpresent
      exact absurd rfl hpresent
    · obtain ⟨config, rfl⟩ := exists_spawnConfig hvalue hconfig
      exact ⟨.spawn ⟨spawnReqId, (parseHandleId_eq_ok.mp hreq).2⟩
        ⟨parentPortId, (parseClusterId_eq_ok.mp hport).2⟩ config, rfl⟩
  next =>
    obtain ⟨_, -, hpresent, _, -, spawnReqId, hreq, _, hchild, rfl⟩ := hdecode
    obtain ⟨childPortId, -, rfl⟩ := parseChildPortId_eq_ok.mp hchild
    obtain ⟨ok, hok⟩ := exists_bool h "ok" 11 (by simp [envelopeMessage])
    obtain ⟨error, herror⟩ := exists_text h "error" 12 error_mem
    cases ok with
    | none =>
      rw [hok] at hpresent
      exact absurd rfl hpresent
    | some ok =>
      rw [hok, herror]
      exact ⟨.spawnAck ⟨spawnReqId, (parseHandleId_eq_ok.mp hreq).2⟩ childPortId ok error, rfl⟩
  next =>
    have hfield : optionalField "lastPortSeq" 14 (.scalar .uint64) ∈ envelopeMessage := by
      simp [envelopeMessage]
    obtain ⟨_, -, realmId, hrealm, _, hseq, rfl⟩ := hdecode
    obtain ⟨lastPortSeq, rfl⟩ := exists_sequence (ofType_optionalField h hfield) hseq
    obtain ⟨error, herror⟩ := exists_text h "error" 12 error_mem
    rw [herror]
    exact ⟨.realmExit ⟨realmId, (parseClusterId_eq_ok.mp hrealm).2⟩ lastPortSeq error, rfl⟩
  next =>
    obtain ⟨_, -, realmId, hrealm, rfl⟩ := hdecode
    exact ⟨.terminate ⟨realmId, (parseClusterId_eq_ok.mp hrealm).2⟩, rfl⟩
  next =>
    have hfield : optionalField "seq" 18 (.scalar .uint64) ∈ envelopeMessage := by
      simp [envelopeMessage]
    have hpayloadField : repeatedField "payload" 17 (.scalar .bytes) ∈ envelopeMessage := by
      simp [envelopeMessage]
    obtain ⟨_, -, fromPort, hfrom, _, -, toPort, hto, _, hseq, rfl⟩ := hdecode
    obtain ⟨seq, rfl⟩ := exists_sequence (ofType_optionalField h hfield) hseq
    obtain ⟨parts, hparts, hall⟩ := ofType_repeatedField h hpayloadField
    obtain ⟨payload, rfl⟩ := exists_map_eq fun part hpart => (hall part hpart).1
    obtain ⟨format, hformat⟩ := exists_uint32 (ofType_optionalField h payloadFormat_mem)
    rw [hparts, hformat]
    exact ⟨.portMsg ⟨fromPort, (parseClusterId_eq_ok.mp hfrom).2⟩
      ⟨toPort, (parseClusterId_eq_ok.mp hto).2⟩ payload seq format, rfl⟩

end Fino.Cluster.Codec
