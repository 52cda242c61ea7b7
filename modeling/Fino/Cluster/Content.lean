import Fino.Cluster.Codec

/-!
# What a cluster message says

`Content` is what there is to a message: well formed identifiers, loads and sequence numbers in
their ranges, and texts. Several objects can say the same (`Content.SaidBy`): `'inherit'` and
`'block'` are directives as the objects are, empty lists of streams need not be there, and unknown
properties do not matter. `value` is the object that `decode` builds and `wire` the one that
`EnvelopeMessage` writes.
-/

namespace Fino.Cluster.Codec

open Lib Protobuf

/-! ## Contents -/

/-- The text is made of the characters of identifiers. -/
def IsHandle (s : String) : Prop := s.toList ≠ [] ∧ ∀ c ∈ s.toList, isIdCode c.toNat

/-- The text is the identifier of a node, a slash, and what follows. -/
def IsClusterId (s : String) : Prop :=
  ∃ node part, s.toList = node ++ '/' :: part ∧ node ≠ [] ∧ part ≠ [] ∧
    (∀ c ∈ node, isIdCode c.toNat) ∧ ∀ c ∈ part, isIdCode c.toNat ∨ c = '/'

abbrev Handle := { s : String // IsHandle s }

abbrev ClusterId := { s : String // IsClusterId s }

/-- `NodeLoad`. -/
@[ext]
structure Load where
  cpu : Double
  memory : Double
  cpu_finite : cpu.isFinite
  memory_finite : memory.isFinite
  cpu_range : ¬ (cpu.isNegative ∨ cpu.exceedsOne)
  memory_nonneg : ¬ memory.isNegative

/-- `PeerInfo`. -/
@[ext]
structure Peer where
  nodeId : Handle
  load : Load

/-- What a rule does with the imports that it matches. -/
inductive Directive
  | inherit
  | block
  | remap (target : String)
  | source (code sourceMap : String)
  | facade (specifier : String) (exported streams sinks : List String)

/-- A rule of a configuration; `origin` is its `from`. -/
structure Rule where
  origin : Option String
  pattern : String
  directive : Directive

/-- The `cliOtel` of the data for a bootstrap. -/
structure CliOtel where
  endpoint : Option String
  script : Option String
  debug : Option Bool

/-- The `bootstrapData` of a configuration. -/
structure BootstrapData where
  cliOtel : Option CliOtel

/-- `SerializedSpawnConfig`. -/
structure SpawnConfig where
  entry : String
  root : String
  rules : List Rule
  bootstrapData : Option BootstrapData

/-- A number that `parseSequence` accepts. -/
structure Sequence (allowZero : Bool) where
  number : ℕ
  safe : number ≤ maxSafeInteger
  least : (if allowZero then 0 else 1) ≤ number

/-- What a message says, whatever the object that says it looks like. -/
inductive Content
  | hello (nodeId : Handle) (load : Load)
  | welcome (nodeId : Handle) (peers : List Peer)
  | peerUp (peer : Peer)
  | peerDown (nodeId : Handle)
  | heartbeat (ts : { x : Double // x.isFinite })
  | spawn (spawnReqId : Handle) (parentPortId : ClusterId) (config : SpawnConfig)
  | spawnAck (spawnReqId : Handle) (childPortId : Option ClusterId) (ok : Bool)
    (error : Option String)
  | realmExit (realmId : ClusterId) (lastPortSeq : Sequence true) (error : Option String)
  | terminate (realmId : ClusterId)
  | portMsg (fromPort toPort : ClusterId) (payload : List (List UInt8)) (seq : Sequence false)
    (payloadFormat : Option (Fin (2 ^ 32)))

/-! ## Objects -/

def optional {α : Type} (value : α → Value) : Option α → Value
  | none => .undefined
  | some x => value x

def textArray (l : List String) : Value := .array (l.map .string)

def numeral (n : ℕ) : Value := .number (.ofInt n)

def formatNumeral (n : Fin (2 ^ 32)) : Value := numeral n

/-- The identifier of a child, which is empty if there is none. -/
def childText : Option ClusterId → String
  | none => ""
  | some id => id

def Load.object (load : Load) : Value :=
  .ofProperties [("cpu", .number load.cpu), ("memory", .number load.memory)]

def Peer.object (peer : Peer) : Value :=
  .ofProperties [("nodeId", .string peer.nodeId), ("load", peer.load.object)]

namespace Directive

def kind : Directive → DirectiveKind
  | inherit => .inherit
  | block => .block
  | remap .. => .remap
  | source .. => .source
  | facade .. => .facade

def value : Directive → Value
  | inherit => .ofProperties [("type", .string "inherit")]
  | block => .ofProperties [("type", .string "block")]
  | remap target => .ofProperties [("type", .string "remap"), ("target", .string target)]
  | source code sourceMap => .ofProperties
    [("type", .string "source"), ("code", .string code), ("source_map", .string sourceMap)]
  | facade specifier exported streams sinks => .ofProperties
    [("type", .string "facade"), ("specifier", .string specifier),
      ("exports", textArray exported), ("streams", ifNotEmpty (textArray streams)),
      ("sinks", ifNotEmpty (textArray sinks))]

/-- The properties on the wire, apart from the kind. -/
def properties : Directive → List (String × Value)
  | inherit | block => directiveBase
  | remap target => ("target", .string target) :: directiveBase
  | source code sourceMap =>
    ("code", .string code) :: ("sourceMap", .string sourceMap) :: directiveBase
  | facade specifier exported streams sinks =>
    [("specifier", .string specifier), ("exports", textArray exported),
      ("streams", textArray streams), ("sinks", textArray sinks)]

def wire (directive : Directive) : Value :=
  .ofProperties (kindProperty directive.kind.number :: directive.properties)

/-- The list of texts is there, or it is empty and left out. -/
def ListSaidBy (l : List String) (value : Value) : Prop :=
  value = textArray l ∨ value = .undefined ∧ l = []

def SaidBy (value : Value) : Directive → Prop
  | inherit => value = .string "inherit" ∨
    isRecord value ∧ value.get "type" = .string "inherit"
  | block => value = .string "block" ∨ isRecord value ∧ value.get "type" = .string "block"
  | remap target => isRecord value ∧ value.get "type" = .string "remap" ∧
    value.get "target" = .string target
  | source code sourceMap => isRecord value ∧ value.get "type" = .string "source" ∧
    value.get "code" = .string code ∧ value.get "source_map" = .string sourceMap
  | facade specifier exported streams sinks => isRecord value ∧
    value.get "type" = .string "facade" ∧ value.get "specifier" = .string specifier ∧
    value.get "exports" = textArray exported ∧ ListSaidBy streams (value.get "streams") ∧
    ListSaidBy sinks (value.get "sinks")

def texts : Directive → List String
  | inherit | block => []
  | remap target => [target]
  | source code sourceMap => [code, sourceMap]
  | facade specifier exported streams sinks => specifier :: exported ++ streams ++ sinks

def map (f : String → String) : Directive → Directive
  | inherit => inherit
  | block => block
  | remap target => remap (f target)
  | source code sourceMap => source (f code) (f sourceMap)
  | facade specifier exported streams sinks =>
    facade (f specifier) (exported.map f) (streams.map f) (sinks.map f)

end Directive

namespace Rule

def value (rule : Rule) : Value :=
  .ofProperties [("from", optional .string rule.origin), ("pattern", .string rule.pattern),
    ("directive", rule.directive.value)]

def wire (rule : Rule) : Value :=
  .ofProperties [("from", optional .string rule.origin), ("pattern", .string rule.pattern),
    ("directive", rule.directive.wire)]

def SaidBy (value : Value) (rule : Rule) : Prop :=
  isRecord value ∧ value.get "from" = optional .string rule.origin ∧
    value.get "pattern" = .string rule.pattern ∧ rule.directive.SaidBy (value.get "directive")

def texts (rule : Rule) : List String :=
  rule.origin.toList ++ rule.pattern :: rule.directive.texts

def map (f : String → String) (rule : Rule) : Rule where
  origin := rule.origin.map f
  pattern := f rule.pattern
  directive := rule.directive.map f

end Rule

namespace CliOtel

/-- The object for `cliOtel`. -/
def object (cliOtel : CliOtel) : Value :=
  .ofProperties [("endpoint", optional .string cliOtel.endpoint),
    ("script", optional .string cliOtel.script), ("debug", optional .bool cliOtel.debug)]

def SaidBy (value : Value) (cliOtel : CliOtel) : Prop :=
  isRecord value ∧ value.get "endpoint" = optional .string cliOtel.endpoint ∧
    value.get "script" = optional .string cliOtel.script ∧
    value.get "debug" = optional .bool cliOtel.debug

/-- The texts of `cliOtel`. -/
def texts (cliOtel : CliOtel) : List String := cliOtel.endpoint.toList ++ cliOtel.script.toList

/-- `cliOtel` with other texts. -/
def map (f : String → String) (cliOtel : CliOtel) : CliOtel where
  endpoint := cliOtel.endpoint.map f
  script := cliOtel.script.map f
  debug := cliOtel.debug

end CliOtel

/-- What is said by a value that need not be there. -/
def OptionSaidBy {α : Type} (saidBy : Value → α → Prop) (value : Value) : Option α → Prop
  | none => value = .undefined
  | some x => saidBy value x

namespace BootstrapData

def object (data : BootstrapData) : Value :=
  .ofProperties [("cliOtel", optional CliOtel.object data.cliOtel)]

def SaidBy (value : Value) (data : BootstrapData) : Prop :=
  isRecord value ∧ OptionSaidBy CliOtel.SaidBy (value.get "cliOtel") data.cliOtel

def texts (data : BootstrapData) : List String := data.cliOtel.toList.flatMap CliOtel.texts

def map (f : String → String) (data : BootstrapData) : BootstrapData where
  cliOtel := data.cliOtel.map (.map f)

end BootstrapData

def ListSaidBy {α : Type} (saidBy : Value → α → Prop) (value : Value) (l : List α) : Prop :=
  ∃ items, value = .array items ∧ List.Forall₂ saidBy items l

namespace SpawnConfig

variable (config : SpawnConfig)

def value : Value :=
  .ofProperties [("entry", .string config.entry), ("root", .string config.root),
    ("rules", .array (config.rules.map Rule.value)),
    ("bootstrapData", optional BootstrapData.object config.bootstrapData)]

def wire : Value :=
  .ofProperties [("entry", .string config.entry), ("root", .string config.root),
    ("rules", .array (config.rules.map Rule.wire)),
    ("bootstrapData", optional BootstrapData.object config.bootstrapData)]

def SaidBy (value : Value) (config : SpawnConfig) : Prop :=
  isRecord value ∧ value.get "entry" = .string config.entry ∧
    value.get "root" = .string config.root ∧
    ListSaidBy Rule.SaidBy (value.get "rules") config.rules ∧
    OptionSaidBy BootstrapData.SaidBy (value.get "bootstrapData") config.bootstrapData

def texts : List String :=
  config.entry :: config.root :: config.rules.flatMap Rule.texts ++
    config.bootstrapData.toList.flatMap BootstrapData.texts

def map (f : String → String) (config : SpawnConfig) : SpawnConfig where
  entry := f config.entry
  root := f config.root
  rules := config.rules.map (.map f)
  bootstrapData := config.bootstrapData.map (.map f)

end SpawnConfig

def Load.SaidBy (value : Value) (load : Load) : Prop :=
  isRecord value ∧ value.get "cpu" = .number load.cpu ∧ value.get "memory" = .number load.memory

def Peer.SaidBy (value : Value) (peer : Peer) : Prop :=
  isRecord value ∧ value.get "nodeId" = .string peer.nodeId ∧ peer.load.SaidBy (value.get "load")

/-- The value is this integer, which may be `-0` for `0`. -/
def NumberSaidBy (value : Value) (n : ℕ) : Prop :=
  ∃ x : Double, value = .number x ∧ x.toInt? = some (n : ℤ)

namespace Content

def kind : Content → MessageKind
  | hello .. => .hello
  | welcome .. => .welcome
  | peerUp .. => .peerUp
  | peerDown .. => .peerDown
  | heartbeat .. => .heartbeat
  | spawn .. => .spawn
  | spawnAck .. => .spawnAck
  | realmExit .. => .realmExit
  | terminate .. => .terminate
  | portMsg .. => .portMsg

/-- The object that `decode` builds. -/
def value : Content → Value
  | hello nodeId load => message .hello [("nodeId", .string nodeId), ("load", load.object)]
  | welcome nodeId peers => message .welcome
    [("nodeId", .string nodeId), ("peers", .array (peers.map Peer.object))]
  | peerUp peer => message .peerUp [("peer", peer.object)]
  | peerDown nodeId => message .peerDown [("nodeId", .string nodeId)]
  | heartbeat ts => message .heartbeat [("ts", .number ts)]
  | spawn spawnReqId parentPortId config => message .spawn
    [("spawnReqId", .string spawnReqId), ("parentPortId", .string parentPortId),
      ("config", config.value)]
  | spawnAck spawnReqId childPortId ok error => message .spawnAck
    [("spawnReqId", .string spawnReqId), ("childPortId", .string (childText childPortId)),
      ("ok", .bool ok), ("error", optional .string error)]
  | realmExit realmId lastPortSeq error => message .realmExit
    [("realmId", .string realmId), ("lastPortSeq", numeral lastPortSeq.number),
      ("error", optional .string error)]
  | terminate realmId => message .terminate [("realmId", .string realmId)]
  | portMsg fromPort toPort payload seq payloadFormat => message .portMsg
    [("fromPort", .string fromPort), ("toPort", .string toPort),
      ("payload", .array (payload.map .bytes)), ("seq", numeral seq.number),
      ("payloadFormat", optional formatNumeral payloadFormat)]

/-- The properties of its own on the wire, with this `payloadFormat`. -/
def properties (payloadFormat : Value) : Content → List (String × Value)
  | hello nodeId load => [("nodeId", .string nodeId), ("load", load.object)]
  | welcome nodeId peers =>
    [("nodeId", .string nodeId), ("peers", .array (peers.map Peer.object))]
  | peerUp peer => [("peer", peer.object)]
  | peerDown nodeId => [("nodeId", .string nodeId)]
  | heartbeat ts => [("ts", .number ts)]
  | spawn spawnReqId parentPortId config =>
    [("spawnReqId", .string spawnReqId), ("parentPortId", .string parentPortId),
      ("config", config.wire)]
  | spawnAck spawnReqId childPortId ok error =>
    [("spawnReqId", .string spawnReqId), ("childPortId", .string (childText childPortId)),
      ("ok", .bool ok), ("error", optional .string error)]
  | realmExit realmId lastPortSeq error =>
    [("realmId", .string realmId), ("lastPortSeq", .bigint lastPortSeq.number),
      ("error", optional .string error)]
  | terminate realmId => [("realmId", .string realmId)]
  | portMsg fromPort toPort payload seq _ =>
    [("fromPort", .string fromPort), ("toPort", .string toPort),
      ("payload", .array (payload.map .bytes)), ("seq", .bigint seq.number),
      ("payloadFormat", payloadFormat)]

/-- The object that `EnvelopeMessage` writes, with this `payloadFormat`. -/
def wire (payloadFormat : Value) (content : Content) : Value :=
  envelope content.kind (content.properties payloadFormat)

/-- The `payloadFormat` of a message. -/
def format : Content → Value
  | portMsg _ _ _ _ payloadFormat => optional formatNumeral payloadFormat
  | _ => .undefined

/-- What the properties of a message of its kind say. -/
def PropertiesSay (msg : Value) : Content → Prop
  | hello nodeId load => msg.get "nodeId" = .string nodeId ∧ load.SaidBy (msg.get "load")
  | welcome nodeId peers => msg.get "nodeId" = .string nodeId ∧
    ListSaidBy Peer.SaidBy (msg.get "peers") peers
  | peerUp peer => peer.SaidBy (msg.get "peer")
  | peerDown nodeId => msg.get "nodeId" = .string nodeId
  | heartbeat ts => msg.get "ts" = .number ts
  | spawn spawnReqId parentPortId config => msg.get "spawnReqId" = .string spawnReqId ∧
    msg.get "parentPortId" = .string parentPortId ∧ config.SaidBy (msg.get "config")
  | spawnAck spawnReqId childPortId ok error => msg.get "spawnReqId" = .string spawnReqId ∧
    msg.get "childPortId" = .string (childText childPortId) ∧ msg.get "ok" = .bool ok ∧
    msg.get "error" = optional .string error
  | realmExit realmId lastPortSeq error => msg.get "realmId" = .string realmId ∧
    NumberSaidBy (msg.get "lastPortSeq") lastPortSeq.number ∧
    msg.get "error" = optional .string error
  | terminate realmId => msg.get "realmId" = .string realmId
  | portMsg fromPort toPort payload seq payloadFormat => msg.get "fromPort" = .string fromPort ∧
    msg.get "toPort" = .string toPort ∧ msg.get "payload" = .array (payload.map .bytes) ∧
    NumberSaidBy (msg.get "seq") seq.number ∧
    OptionSaidBy (fun value (n : Fin (2 ^ 32)) => NumberSaidBy value n) (msg.get "payloadFormat")
      payloadFormat

def SaidBy (msg : Value) (content : Content) : Prop :=
  msg.get "t" = .string content.kind.text ∧ content.PropertiesSay msg

def texts : Content → List String
  | spawn _ _ config => config.texts
  | spawnAck _ _ _ error | realmExit _ _ error => error.toList
  | _ => []

/-- No free text begins with a byte order mark. -/
def Unmarked (content : Content) : Prop := ∀ s ∈ content.texts, ¬ Wire.IsMarked s

def map (f : String → String) : Content → Content
  | spawn spawnReqId parentPortId config => spawn spawnReqId parentPortId (config.map f)
  | spawnAck spawnReqId childPortId ok error => spawnAck spawnReqId childPortId ok (error.map f)
  | realmExit realmId lastPortSeq error => realmExit realmId lastPortSeq (error.map f)
  | content => content

end Content

end Fino.Cluster.Codec
