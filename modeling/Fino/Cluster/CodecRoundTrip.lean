import Fino.Cluster.FromWire
import Fino.Cluster.Saying

/-!
# Cluster messages are found again

What is decoded is the object of the content that was encoded, with every text as a text decoder
leaves it (`decode_encode`), and whatever is decoded can be encoded again (`encode_value`). So a
message is found again exactly if no text begins with a byte order mark (`decode_encode_iff`).
-/

namespace Fino.Cluster.Codec

open Lib List Lib.Outcome Lib.Wire Protobuf Content

/-! ## What is read of what is written -/

variable {fields : List Field} {l l' : List (String × Value)}

lemma normalValue_eq (hnames : (fields.map (·.1.name)).Nodup) (keys : List String)
    (hkeys : l.map Prod.fst = keys)
    (hrepeated : ∀ field ∈ fields, field.1.repeated → field.1.name ∈ keys)
    (h : List.Forall₂ (fun p q => (p.1, normalProperty fields p.1 p.2) = q) l l') :
    normalValue (.message fields) (.ofProperties l) = .ofProperties l' := by
  rw [normalValue_ofProperties hnames keys hkeys hrepeated]
  refine congrArg Value.ofProperties ?_
  rwa [← forall₂_eq_eq_eq, forall₂_map_left_iff]

variable {α : Type} {s : String}

lemma normal_optional (normal : Value → Value) (value value' : α → Value)
    (hdefined : ∀ x, ¬ (value x).isUndefined) (h : ∀ x, normal (value x) = value' x)
    (x : Option α) : (if (optional value x).isUndefined then .undefined
      else normal (optional value x)) = optional value' x := by
  cases x with
  | none => rfl
  | some x =>
    rw [optional, if_neg (hdefined x), h x]
    rfl

lemma normal_kind {n : ℕ} (hpos : 0 < n) (hlt : n < 2 ^ 53) :
    normalField (plainField "kind" 1 (.scalar .enum)) (normalValue (.scalar .enum))
      (.number (.ofInt n)) = .number (.ofInt n) := by
  have hzero : (Double.ofInt n).isZero = false := by
    rw [Double.isZero_ofInt (by omega)]
    exact decide_eq_false (by omega)
  show (if ¬ false ∧ (Double.ofInt n).isZero then Value.number (.ofInt 0)
    else normalInteger (.number (.ofInt n))) = _
  rw [hzero, normalInteger, Double.toInt?_ofInt (by omega)]
  rfl

lemma normal_textArray (l : List String) :
    .array ((l.map .string).map normalString) = textArray (l.map dropMark) := by
  rw [textArray, map_map, map_map]
  rfl

lemma dropMark_of_isIdCode {c : Char} {l : List Char} (hs : s.toList = c :: l)
    (hc : isIdCode c.toNat) : dropMark s = s := by
  refine dropMark_eq_self.mpr fun hmarked => ?_
  rw [IsMarked, hs, List.head?_cons, Option.some.injEq] at hmarked
  rw [hmarked] at hc
  exact absurd hc (by decide)

lemma dropMark_handle (id : Handle) : dropMark id = id := by
  obtain ⟨s, hne, hall⟩ := id
  obtain ⟨c, l, hs⟩ := exists_cons_of_ne_nil hne
  exact dropMark_of_isIdCode hs (hall c (hs ▸ mem_cons_self))

lemma dropMark_clusterId (id : ClusterId) : dropMark id = id := by
  obtain ⟨s, node, part, hs, hnode, -, hall, -⟩ := id
  obtain ⟨c, l, rfl⟩ := exists_cons_of_ne_nil hnode
  exact dropMark_of_isIdCode hs (hall c mem_cons_self)

lemma dropMark_childText (id : Option ClusterId) : dropMark (childText id) = childText id := by
  cases id with
  | none => exact dropMark_eq_self.mpr (by decide)
  | some id => exact dropMark_clusterId id

lemma normal_load (load : Load) : normalValue (.message loadMessage) load.object = load.object :=
  normalValue_eq (by decide) ["cpu", "memory"] rfl (by decide) (.cons rfl (.cons rfl .nil))

lemma normal_text (h : dropMark s = s) : normalString (.string s) = .string s := by
  rw [normalString, h]

lemma normal_peer (peer : Peer) :
    normalValue (.message peerMessage) peer.object = peer.object := by
  refine normalValue_eq (by decide) ["nodeId", "load"] rfl (by decide) (.cons ?_ (.cons ?_ .nil))
  · exact congrArg (Prod.mk "nodeId") (normal_text (dropMark_handle peer.nodeId))
  · exact congrArg (Prod.mk "load") (normal_load peer.load)

lemma optional_map {β : Type} (value : β → Value) (f : α → β) (x : Option α) :
    optional (fun x => value (f x)) x = optional value (x.map f) := by
  cases x with
  | none => rfl
  | some x => rfl

lemma normal_optionalText (x : Option String) :
    (if (optional .string x).isUndefined then .undefined
      else normalString (optional .string x)) = optional .string (x.map dropMark) := by
  rw [← optional_map]
  exact normal_optional normalString .string _ (fun _ => Bool.false_ne_true) (fun _ => rfl) x

lemma DirectiveKind.number_bounds (kind : DirectiveKind) :
    0 < kind.number ∧ kind.number < 2 ^ 53 := by
  cases kind <;> decide

lemma MessageKind.number_bounds (kind : MessageKind) :
    0 < kind.number ∧ kind.number < 2 ^ 53 := by
  cases kind <;> decide

lemma normal_directive (d : Directive) :
    normalValue (.message directiveMessage) d.wire = (d.map dropMark).wire := by
  have hkind : ("kind", normalProperty directiveMessage "kind" (.number (.ofInt d.kind.number))) =
      kindProperty d.kind.number :=
    congrArg (Prod.mk "kind") (normal_kind d.kind.number_bounds.1 d.kind.number_bounds.2)
  cases d with
  | inherit | block =>
    exact normalValue_eq (by decide) ["kind", "exports", "streams", "sinks"] rfl (by decide)
      (.cons hkind (.cons rfl (.cons rfl (.cons rfl .nil))))
  | remap target =>
    exact normalValue_eq (by decide) ["kind", "target", "exports", "streams", "sinks"] rfl
      (by decide) (.cons hkind (.cons rfl (.cons rfl (.cons rfl (.cons rfl .nil)))))
  | source code sourceMap =>
    exact normalValue_eq (by decide) ["kind", "code", "sourceMap", "exports", "streams", "sinks"]
      rfl (by decide)
      (.cons hkind (.cons rfl (.cons rfl (.cons rfl (.cons rfl (.cons rfl .nil))))))
  | facade specifier exported streams sinks =>
    exact normalValue_eq (by decide) ["kind", "specifier", "exports", "streams", "sinks"] rfl
      (by decide) (.cons hkind (.cons rfl
        (.cons (congrArg (Prod.mk "exports") (normal_textArray exported))
        (.cons (congrArg (Prod.mk "streams") (normal_textArray streams))
        (.cons (congrArg (Prod.mk "sinks") (normal_textArray sinks)) .nil)))))

lemma normal_rule (rule : Rule) :
    normalValue (.message ruleMessage) rule.wire = (rule.map dropMark).wire := by
  refine normalValue_eq (by decide) ["from", "pattern", "directive"] rfl (by decide)
    (.cons ?_ (.cons rfl (.cons ?_ .nil)))
  · exact congrArg (Prod.mk "from") (normal_optionalText rule.origin)
  · exact congrArg (Prod.mk "directive") (normal_directive rule.directive)

lemma normal_cliOtel (cliOtel : CliOtel) :
    normalValue (.message cliOtelMessage) cliOtel.object = (cliOtel.map dropMark).object := by
  refine normalValue_eq (by decide) ["endpoint", "script", "debug"] rfl (by decide)
    (.cons ?_ (.cons ?_ (.cons ?_ .nil)))
  · exact congrArg (Prod.mk "endpoint") (normal_optionalText cliOtel.endpoint)
  · exact congrArg (Prod.mk "script") (normal_optionalText cliOtel.script)
  · exact congrArg (Prod.mk "debug") (normal_optional id .bool .bool
      (fun _ => Bool.false_ne_true) (fun _ => rfl) cliOtel.debug)

lemma normal_bootstrapData (data : BootstrapData) :
    normalValue (.message bootstrapDataMessage) data.object = (data.map dropMark).object := by
  refine normalValue_eq (by decide) ["cliOtel"] rfl (by decide) (.cons ?_ .nil)
  refine congrArg (Prod.mk "cliOtel") (Eq.trans ?_ (optional_map CliOtel.object _ _))
  exact normal_optional (normalValue (.message cliOtelMessage)) CliOtel.object _
    (fun _ => Bool.false_ne_true) normal_cliOtel data.cliOtel

lemma normal_spawnConfig (config : SpawnConfig) :
    normalValue (.message spawnConfigMessage) config.wire = (config.map dropMark).wire := by
  refine normalValue_eq (by decide) ["entry", "root", "rules", "bootstrapData"] rfl (by decide)
    (.cons rfl (.cons rfl (.cons ?_ (.cons ?_ .nil))))
  · refine congrArg (Prod.mk "rules") ?_
    show Value.array ((config.rules.map Rule.wire).map (normalValue (.message ruleMessage))) =
      .array ((config.rules.map (Rule.map dropMark)).map Rule.wire)
    rw [map_map, map_map]
    exact congrArg Value.array (map_congr_left fun rule _ => normal_rule rule)
  · refine congrArg (Prod.mk "bootstrapData") (Eq.trans ?_ (optional_map BootstrapData.object _ _))
    exact normal_optional (normalValue (.message bootstrapDataMessage)) BootstrapData.object _
      (fun _ => Bool.false_ne_true) normal_bootstrapData config.bootstrapData

variable {kind : MessageKind}

lemma normal_envelope
    (h : List.Forall₂ (fun p q => (p.1, normalProperty envelopeMessage p.1 p.2) = q) l l') :
    normalValue (.message envelopeMessage) (envelope kind l) = envelope kind l' := by
  refine normalValue_eq (by decide) ("kind" :: l.map Prod.fst ++ ["peers", "payload"]) ?_ ?_ ?_
  · rw [cons_append, map_cons, map_append]
    rfl
  · intro field hfield hrepeated
    have hname : field.1.name = "peers" ∨ field.1.name = "payload" := by
      revert field
      decide
    rw [mem_append]
    exact .inr (by simpa using hname)
  · refine .cons (congrArg (Prod.mk "kind") ?_) (rel_append h (.cons rfl (.cons rfl .nil)))
    exact normal_kind kind.number_bounds.1 kind.number_bounds.2

variable {value : Value}

lemma normal_format {x : Option (Fin (2 ^ 32))}
    (h : OptionSaidBy (fun value (n : Fin (2 ^ 32)) => NumberSaidBy value n) value x) :
    (if value.isUndefined then .undefined else normalInteger value) = optional formatNumeral x := by
  cases x with
  | none =>
    rw [show value = .undefined from h]
    rfl
  | some n =>
    obtain ⟨x, rfl, hx⟩ := h
    show normalInteger (.number x) = numeral n
    rw [normalInteger, hx, numeral]
    rfl

variable {content : Content} {msg : Value} {name : String} {number : ℕ}

lemma normal_wire (h : content.PropertiesSay msg) :
    normalValue (.message envelopeMessage) (content.wire (msg.get "payloadFormat")) =
      (content.map dropMark).wire (content.map dropMark).format := by
  have hkind : (content.map dropMark).kind = content.kind := by
    cases content <;> rfl
  rw [wire, wire, hkind]
  refine normal_envelope ?_
  cases content with
  | hello nodeId load =>
    exact .cons (congrArg (Prod.mk "nodeId") (normal_text (dropMark_handle nodeId)))
      (.cons (congrArg (Prod.mk "load") (normal_load load)) .nil)
  | welcome nodeId peers =>
    refine .cons (congrArg (Prod.mk "nodeId") (normal_text (dropMark_handle nodeId)))
      (.cons (congrArg (Prod.mk "peers") (congrArg Value.array ?_)) .nil)
    rw [map_map]
    exact map_congr_left fun peer _ => normal_peer peer
  | peerUp peer => exact .cons (congrArg (Prod.mk "peer") (normal_peer peer)) .nil
  | peerDown nodeId =>
    exact .cons (congrArg (Prod.mk "nodeId") (normal_text (dropMark_handle nodeId))) .nil
  | heartbeat ts => exact .cons rfl .nil
  | spawn spawnReqId parentPortId config =>
    exact .cons (congrArg (Prod.mk "spawnReqId") (normal_text (dropMark_handle spawnReqId)))
      (.cons (congrArg (Prod.mk "parentPortId") (normal_text (dropMark_clusterId parentPortId)))
      (.cons (congrArg (Prod.mk "config") (normal_spawnConfig config)) .nil))
  | spawnAck spawnReqId childPortId ok error =>
    exact .cons (congrArg (Prod.mk "spawnReqId") (normal_text (dropMark_handle spawnReqId)))
      (.cons (congrArg (Prod.mk "childPortId") (normal_text (dropMark_childText childPortId)))
      (.cons rfl (.cons (congrArg (Prod.mk "error") (normal_optionalText error)) .nil)))
  | realmExit realmId lastPortSeq error =>
    exact .cons (congrArg (Prod.mk "realmId") (normal_text (dropMark_clusterId realmId)))
      (.cons rfl (.cons (congrArg (Prod.mk "error") (normal_optionalText error)) .nil))
  | terminate realmId =>
    exact .cons (congrArg (Prod.mk "realmId") (normal_text (dropMark_clusterId realmId))) .nil
  | portMsg fromPort toPort payload seq payloadFormat =>
    refine .cons (congrArg (Prod.mk "fromPort") (normal_text (dropMark_clusterId fromPort)))
      (.cons (congrArg (Prod.mk "toPort") (normal_text (dropMark_clusterId toPort)))
      (.cons (congrArg (Prod.mk "payload") ?_) (.cons rfl
      (.cons (congrArg (Prod.mk "payloadFormat") (normal_format h.2.2.2.2)) .nil))))
    show Value.array ((payload.map Value.bytes).map id) = .array (payload.map .bytes)
    rw [map_id]

lemma defined_of_compiles (hnames : (fields.map (·.1.name)).Nodup)
    (hcompiles : compileSchema (fields.map descriptor) = .ok fields)
    (hnested : ∀ field ∈ fields, ∀ fields', field.2 = .message fields' → Defined fields') :
    Defined fields := by
  refine .define ?_ ?_ hcompiles
  · rw [map_map]
    exact hnames
  · intro d hd fields' htype
    obtain ⟨field, hfield, rfl⟩ := mem_map.mp hd
    exact hnested field hfield fields' htype

lemma defined_load : Defined loadMessage :=
  defined_of_compiles (by decide) rfl (by simp [loadMessage, optionalField])

lemma defined_peer : Defined peerMessage := by
  refine defined_of_compiles (by decide) rfl ?_
  simp [peerMessage, optionalField, defined_load]

lemma defined_directive : Defined directiveMessage := by
  refine defined_of_compiles (by decide) rfl ?_
  simp [directiveMessage, optionalField, repeatedField, plainField]

lemma defined_rule : Defined ruleMessage := by
  refine defined_of_compiles (by decide) rfl ?_
  simp [ruleMessage, optionalField, defined_directive]

lemma defined_cliOtel : Defined cliOtelMessage := by
  refine defined_of_compiles (by decide) rfl ?_
  simp [cliOtelMessage, optionalField]

lemma defined_bootstrapData : Defined bootstrapDataMessage := by
  refine defined_of_compiles (by decide) rfl ?_
  simp [bootstrapDataMessage, optionalField, defined_cliOtel]

lemma defined_spawnConfig : Defined spawnConfigMessage := by
  refine defined_of_compiles (by decide) rfl ?_
  simp [spawnConfigMessage, optionalField, repeatedField, defined_rule, defined_bootstrapData]

lemma defined_envelope : Defined envelopeMessage := by
  refine defined_of_compiles (by decide) rfl ?_
  simp [envelopeMessage, optionalField, repeatedField, plainField, defined_load, defined_peer,
    defined_spawnConfig]

lemma decode_encode (h : content.SaidBy msg) {bytes : List UInt8}
    (hencode : encode msg = .ok bytes) (hsize : bytes.length ≤ maxSafeInteger) :
    decode bytes = .ok (content.map dropMark).value := by
  obtain ⟨w, hw, hbytes⟩ := bind_eq_ok.mp hencode
  rw [toWire_of_saidBy h, Except.ok.injEq] at hw
  rw [← hw, mapError_eq_ok] at hbytes
  have hround := decodeMessage_encodeMessage defined_envelope
    (content.wire (msg.get "payloadFormat"))
  rw [hbytes] at hround
  have hread := hround.2 hsize
  rw [normal_wire h.2] at hread
  exact bind_eq_ok.mpr ⟨_, mapError_eq_ok.mpr hread, fromWire_wire _⟩

/-! ## What is decoded can be encoded -/

section Written

variable {name : String} {number : ℕ} {type : FieldType}

lemma written_some (hdefined : ¬ value.isUndefined) (h : written.ofType type value) :
    written.ofField (optionalField name number type) (written.ofType type) value :=
  (Rules.ofField_iff Bool.false_ne_true hdefined).mpr (.inr h)

lemma written_optional (value : α → Value) (hdefined : ∀ x, ¬ (value x).isUndefined)
    (h : ∀ x, written.ofType type (value x)) (x : Option α) :
    written.ofField (optionalField name number type) (written.ofType type) (optional value x) := by
  cases x with
  | none => exact .inl rfl
  | some x => exact written_some (hdefined x) (h x)

lemma written_items {value : α → Value} (h : ∀ x, written.ofType type (value x))
    (l : List α) : written.ofField (repeatedField name number type) (written.ofType type)
      (.array (l.map value)) := by
  refine ⟨l.map value, rfl, fun item hitem => ?_⟩
  obtain ⟨x, -, rfl⟩ := mem_map.mp hitem
  exact h x

lemma written_kind {n : ℕ} (hlt : n < 2 ^ 31) :
    written.ofField (plainField "kind" 1 (.scalar .enum)) (written.ofType (.scalar .enum))
      (.number (.ofInt n)) := by
  refine (Rules.ofField_iff Bool.false_ne_true ?_).mpr
    (.inr ⟨_, n, rfl, Double.toInt?_ofInt (by omega), by omega, by omega⟩)
  exact Bool.false_ne_true

lemma written_bytes (l : List UInt8) : written.ofType (.scalar .bytes) (.bytes l) := ⟨l, rfl⟩

lemma written_bool (b : Bool) : written.ofType (.scalar .bool) (.bool b) := ⟨b, rfl⟩

lemma written_string (s : String) : written.ofType (.scalar .string) (.string s) := ⟨s, rfl⟩

lemma written_text (s : String) : written.ofField (optionalField name number (.scalar .string))
    (written.ofType (.scalar .string)) (.string s) :=
  written_some Bool.false_ne_true (written_string s)

lemma written_optionalText (x : Option String) :
    written.ofField (optionalField name number (.scalar .string))
      (written.ofType (.scalar .string)) (optional .string x) :=
  written_optional .string (fun _ => Bool.false_ne_true) written_string x

end Written

lemma written_load (load : Load) : written.ofType (.message loadMessage) load.object :=
  Rules.ofType_ofProperties (by decide) ["cpu", "memory"] rfl (by decide) rfl
    (forall_mem_cons.mpr ⟨written_some Bool.false_ne_true ⟨_, rfl⟩,
      forall_mem_singleton.mpr (written_some Bool.false_ne_true ⟨_, rfl⟩)⟩)

lemma written_peer (peer : Peer) : written.ofType (.message peerMessage) peer.object :=
  Rules.ofType_ofProperties (by decide) ["nodeId", "load"] rfl (by decide) rfl
    (forall_mem_cons.mpr ⟨written_text _, forall_mem_singleton.mpr
      (written_some Bool.false_ne_true (written_load peer.load))⟩)

lemma written_directive (d : Directive) : written.ofType (.message directiveMessage) d.wire := by
  have hkind : written.ofProperty directiveMessage "kind" (.number (.ofInt d.kind.number)) :=
    written_kind (by cases d.kind <;> decide)
  cases d with
  | inherit | block =>
    refine Rules.ofType_ofProperties (by decide) ["kind", "exports", "streams", "sinks"] rfl
      (by decide) rfl ?_
    simp only [Directive.properties, directiveBase, forall_mem_cons]
    exact ⟨hkind, written_items written_string [], written_items written_string [],
      written_items written_string [], forall_mem_nil _⟩
  | remap target =>
    refine Rules.ofType_ofProperties (by decide) ["kind", "target", "exports", "streams", "sinks"]
      rfl (by decide) rfl ?_
    simp only [Directive.properties, directiveBase, forall_mem_cons]
    exact ⟨hkind, written_text target, written_items written_string [],
      written_items written_string [], written_items written_string [], forall_mem_nil _⟩
  | source code sourceMap =>
    refine Rules.ofType_ofProperties (by decide)
      ["kind", "code", "sourceMap", "exports", "streams", "sinks"] rfl (by decide) rfl ?_
    simp only [Directive.properties, directiveBase, forall_mem_cons]
    exact ⟨hkind, written_text code, written_text sourceMap, written_items written_string [],
      written_items written_string [], written_items written_string [], forall_mem_nil _⟩
  | facade specifier exported streams sinks =>
    refine Rules.ofType_ofProperties (by decide)
      ["kind", "specifier", "exports", "streams", "sinks"] rfl (by decide) rfl ?_
    simp only [Directive.properties, forall_mem_cons]
    exact ⟨hkind, written_text specifier, written_items written_string exported,
      written_items written_string streams, written_items written_string sinks,
      forall_mem_nil _⟩

lemma written_rule (rule : Rule) : written.ofType (.message ruleMessage) rule.wire := by
  refine Rules.ofType_ofProperties (by decide) ["from", "pattern", "directive"] rfl (by decide) rfl
    ?_
  simp only [forall_mem_cons]
  exact ⟨written_optionalText rule.origin, written_text rule.pattern,
    written_some Bool.false_ne_true (written_directive rule.directive), forall_mem_nil _⟩

lemma written_cliOtel (cliOtel : CliOtel) :
    written.ofType (.message cliOtelMessage) cliOtel.object := by
  refine Rules.ofType_ofProperties (by decide) ["endpoint", "script", "debug"] rfl (by decide)
    rfl ?_
  simp only [forall_mem_cons]
  exact ⟨written_optionalText cliOtel.endpoint, written_optionalText cliOtel.script,
    written_optional .bool (fun _ => Bool.false_ne_true) written_bool cliOtel.debug,
    forall_mem_nil _⟩

lemma written_bootstrapData (data : BootstrapData) :
    written.ofType (.message bootstrapDataMessage) data.object := by
  refine Rules.ofType_ofProperties (by decide) ["cliOtel"] rfl (by decide) rfl ?_
  exact forall_mem_singleton.mpr (written_optional CliOtel.object
    (fun _ => Bool.false_ne_true) written_cliOtel data.cliOtel)

lemma written_spawnConfig (config : SpawnConfig) :
    written.ofType (.message spawnConfigMessage) config.wire := by
  refine Rules.ofType_ofProperties (by decide) ["entry", "root", "rules", "bootstrapData"] rfl
    (by decide) rfl ?_
  simp only [forall_mem_cons]
  exact ⟨written_text config.entry, written_text config.root,
    written_items written_rule config.rules, written_optional BootstrapData.object
      (fun _ => Bool.false_ne_true) written_bootstrapData config.bootstrapData,
    forall_mem_nil _⟩

lemma written_sequence {allowZero : Bool} (n : Sequence allowZero) :
    written.ofField (optionalField name number (.scalar .uint64))
      (written.ofType (.scalar .uint64)) (.bigint n.number) := by
  have hsafe := n.safe
  unfold maxSafeInteger at hsafe
  exact written_some Bool.false_ne_true ⟨n.number, rfl, by omega, by omega⟩

lemma written_format (x : Option (Fin (2 ^ 32))) :
    written.ofField (optionalField name number (.scalar .uint32))
      (written.ofType (.scalar .uint32)) (optional formatNumeral x) := by
  refine written_optional formatNumeral (fun _ => Bool.false_ne_true) (fun n => ?_) x
  exact ⟨_, n, rfl, Double.toInt?_ofInt (by omega), by omega, by omega⟩

lemma written_envelope (h : ∀ p ∈ l, written.ofProperty envelopeMessage p.1 p.2) :
    written.ofType (.message envelopeMessage) (envelope kind l) := by
  refine Rules.ofType_ofProperties (by decide) ("kind" :: l.map Prod.fst ++ ["peers", "payload"])
    ?_ ?_ rfl ?_
  · rw [cons_append, map_cons, map_append]
    rfl
  · intro field hfield
    have hname : ¬ field.1.repeated ∧ field.1.optional ∨
        field.1.name ∈ ["kind", "peers", "payload"] := by
      revert field
      decide
    simp only [mem_cons, not_mem_nil, or_false] at hname
    simp only [cons_append, mem_cons, mem_append, not_mem_nil, or_false]
    tauto
  · rw [cons_append, forall_mem_cons]
    refine ⟨written_kind (by cases kind <;> decide), forall_mem_append.mpr ⟨h, ?_⟩⟩
    simp only [base, forall_mem_cons]
    exact ⟨written_items written_peer [], written_items written_bytes [], forall_mem_nil _⟩

lemma written_wire (content : Content) :
    written.ofType (.message envelopeMessage) (content.wire content.format) := by
  refine written_envelope ?_
  cases content with
  | hello nodeId load =>
    simp only [properties, forall_mem_cons]
    exact ⟨written_text _, written_some Bool.false_ne_true (written_load load), forall_mem_nil _⟩
  | welcome nodeId peers =>
    simp only [properties, forall_mem_cons]
    exact ⟨written_text _, written_items written_peer peers, forall_mem_nil _⟩
  | peerUp peer =>
    exact forall_mem_singleton.mpr (written_some Bool.false_ne_true (written_peer peer))
  | peerDown nodeId | terminate realmId => exact forall_mem_singleton.mpr (written_text _)
  | heartbeat ts =>
    exact forall_mem_singleton.mpr (written_some Bool.false_ne_true ⟨_, rfl⟩)
  | spawn spawnReqId parentPortId config =>
    simp only [properties, forall_mem_cons]
    exact ⟨written_text _, written_text _,
      written_some Bool.false_ne_true (written_spawnConfig config), forall_mem_nil _⟩
  | spawnAck spawnReqId childPortId ok error =>
    simp only [properties, forall_mem_cons]
    exact ⟨written_text _, written_text _, written_some Bool.false_ne_true (written_bool ok),
      written_optionalText error, forall_mem_nil _⟩
  | realmExit realmId lastPortSeq error =>
    simp only [properties, forall_mem_cons]
    exact ⟨written_text _, written_sequence lastPortSeq, written_optionalText error,
      forall_mem_nil _⟩
  | portMsg fromPort toPort payload seq payloadFormat =>
    simp only [properties, forall_mem_cons]
    exact ⟨written_text _, written_text _, written_items written_bytes payload,
      written_sequence seq, written_format payloadFormat, forall_mem_nil _⟩

/-! ## Messages are found again -/

lemma map_value_eq_iff : (content.map dropMark).value = content.value ↔ content.Unmarked := by
  rw [value_inj, map_eq_self]
  exact forall₂_congr fun s _ => dropMark_eq_self

lemma encode_value (content : Content) : ∃ bytes, encode content.value = .ok bytes := by
  have hformat : content.value.get "payloadFormat" = content.format := by
    cases content <;> rfl
  have hwire := toWire_of_saidBy content.saidBy_value
  rw [hformat] at hwire
  have hround := decodeMessage_encodeMessage defined_envelope (content.wire content.format)
  cases hbytes : encodeMessage envelopeMessage (content.wire content.format) with
  | error e =>
    rw [hbytes] at hround
    exact absurd (written_wire content) hround
  | ok bytes =>
    exact ⟨bytes, bind_eq_ok.mpr ⟨_, hwire, mapError_eq_ok.mpr hbytes⟩⟩

/-- `decode` finds again what `encode` accepts exactly if no text begins with a byte order mark, and
what it returns can be encoded. -/
theorem decode_encode_iff (msg : Value) (bytes : List UInt8) :
    (IsClusterMessage msg → encode msg = .ok bytes → bytes.length ≤ maxSafeInteger →
      ∃ content : Content, content.SaidBy msg ∧
        (∀ content' : Content, content'.SaidBy msg → content' = content) ∧
        (decode bytes = .ok content.value ↔ content.Unmarked)) ∧
      (decode bytes = .ok msg → ∃ (content : Content) (bytes' : List UInt8),
        msg = content.value ∧ encode msg = .ok bytes' ∧
        (bytes'.length ≤ maxSafeInteger → (decode bytes' = .ok msg ↔ content.Unmarked))) := by
  constructor
  · intro hmsg hencode hsize
    obtain ⟨w, hw, hbytes⟩ := bind_eq_ok.mp hencode
    have hround := decodeMessage_encodeMessage defined_envelope w
    rw [mapError_eq_ok.mp hbytes] at hround
    obtain ⟨content, hcontent, -⟩ := saidBy_of_toWire hmsg hw hround.1
    refine ⟨content, hcontent, fun content' h => saidBy_unique h hcontent, ?_⟩
    rw [decode_encode hcontent hencode hsize, Except.ok.injEq, map_value_eq_iff]
  · intro hdecode
    obtain ⟨w, hw, hmsg⟩ := bind_eq_ok.mp hdecode
    have hdecoded := decoded_of_decodeMessage defined_envelope (mapError_eq_ok.mp hw)
    obtain ⟨content, rfl⟩ := exists_content_of_fromWire hdecoded hmsg
    obtain ⟨bytes', hbytes'⟩ := encode_value content
    refine ⟨content, bytes', rfl, hbytes', fun hsize => ?_⟩
    rw [decode_encode content.saidBy_value hbytes' hsize, Except.ok.injEq, map_value_eq_iff]

/-- A `SPAWN_ACK` for a request that failed. -/
def failedAck (error : String) : Value :=
  message .spawnAck [("spawnReqId", .string "r1"), ("childPortId", .string ""),
    ("ok", .bool false), ("error", .string error)]

lemma isHandle_r1 : IsHandle "r1" := by
  have hall : "r1".toList.all (fun c => isIdCode c.toNat) := by decide
  exact ⟨by decide, all_eq_true.mp hall⟩

/-- A failure that is reported as it is. -/
theorem failure_is_reported :
    ∃ bytes, encode (failedAck "full") = .ok bytes ∧ decode bytes = .ok (failedAck "full") := by
  have hencode : encode (failedAck "full") =
      .ok [0x08, 0x07, 0x3a, 0x02, 0x72, 0x31, 0x52, 0x00, 0x58, 0x00, 0x62, 0x04, 0x66, 0x75,
        0x6c, 0x6c] := rfl
  have hid := isHandle_r1
  have hsaid : (spawnAck ⟨"r1", hid⟩ none false (some "full")).SaidBy (failedAck "full") :=
    ⟨rfl, rfl, rfl, rfl, rfl⟩
  obtain ⟨content, -, hunique, hiff⟩ :=
    (decode_encode_iff _ _).1 (fun _ => ⟨false, rfl⟩) hencode (by decide)
  rw [← hunique _ hsaid] at hiff
  exact ⟨_, hencode, hiff.mpr (forall_mem_singleton.mpr (by decide))⟩

/-- Of two marks at the beginning of a text, one is lost each time. -/
theorem mark_of_failure_is_lost :
    (∃ bytes, encode (failedAck "\ufefffull") = .ok bytes ∧
      decode bytes = .ok (failedAck "full")) ∧
      ∃ bytes bytes', decode bytes = .ok (failedAck "\ufefffull") ∧
        encode (failedAck "\ufefffull") = .ok bytes' ∧ decode bytes' = .ok (failedAck "full") := by
  have hid := isHandle_r1
  have hdecode (error : String) {bytes : List UInt8}
      (hencode : encode (failedAck error) = .ok bytes) (hsize : bytes.length ≤ maxSafeInteger) :
      decode bytes = .ok (failedAck (dropMark error)) := by
    have hsaid : (spawnAck ⟨"r1", hid⟩ none false (some error)).SaidBy (failedAck error) :=
      ⟨rfl, rfl, rfl, rfl, rfl⟩
    exact decode_encode hsaid hencode hsize
  have hone : encode (failedAck "\ufefffull") =
      .ok [0x08, 0x07, 0x3a, 0x02, 0x72, 0x31, 0x52, 0x00, 0x58, 0x00, 0x62, 0x07, 0xef, 0xbb,
        0xbf, 0x66, 0x75, 0x6c, 0x6c] := rfl
  have htwo : encode (failedAck "\ufeff\ufefffull") =
      .ok [0x08, 0x07, 0x3a, 0x02, 0x72, 0x31, 0x52, 0x00, 0x58, 0x00, 0x62, 0x0a, 0xef, 0xbb,
        0xbf, 0xef, 0xbb, 0xbf, 0x66, 0x75, 0x6c, 0x6c] := rfl
  have hlost : dropMark "\ufefffull" = "full" := by decide
  have hkept : dropMark "\ufeff\ufefffull" = "\ufefffull" := by decide
  have hread := hdecode _ hone (by decide)
  have hread' := hdecode _ htwo (by decide)
  exact ⟨⟨_, hone, hread⟩, _, _, hread', hone, hread⟩

end Fino.Cluster.Codec
