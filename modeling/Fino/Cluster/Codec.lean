import Fino.Lib.Outcome
import Fino.Protobuf.Codec

/-!
# Cluster messages as bytes

The codec of `js/internal/cluster/protocol.ts`. `encode` checks a message and builds the object that
`EnvelopeMessage` writes (`toWire`); `decode` rebuilds the message from it with checks of its own
(`fromWire`). A property that is not there is `undefined`, and `...(x === undefined ? {} : { k: x
})` is the property `k` with the value `x`.
-/

namespace Fino.Cluster.Codec

open Lib Protobuf

/-- A field of a schema with `optional: true`. -/
def optionalField (name : String) (number : ℕ) (type : FieldType) : Field :=
  (⟨name, number, false, false, true⟩, type)

/-- A field of a schema with `repeated: true`. -/
def repeatedField (name : String) (number : ℕ) (type : FieldType) : Field :=
  (⟨name, number, true, type.isPackable, false⟩, type)

def plainField (name : String) (number : ℕ) (type : FieldType) : Field :=
  (⟨name, number, false, false, false⟩, type)

def descriptor (field : Field) : Descriptor where
  name := field.1.name
  number := .ofInt field.1.number
  type := field.2
  repeated := if field.1.repeated then some true else none
  optional := if field.1.optional then some true else none

def loadMessage : List Field :=
  [optionalField "cpu" 1 (.scalar .double),
    optionalField "memory" 2 (.scalar .double)]

def peerMessage : List Field :=
  [optionalField "nodeId" 1 (.scalar .string),
    optionalField "load" 2 (.message loadMessage)]

def directiveMessage : List Field :=
  [plainField "kind" 1 (.scalar .enum),
    optionalField "target" 2 (.scalar .string),
    optionalField "code" 3 (.scalar .string),
    optionalField "sourceMap" 4 (.scalar .string),
    optionalField "specifier" 5 (.scalar .string),
    repeatedField "exports" 6 (.scalar .string),
    repeatedField "streams" 7 (.scalar .string),
    repeatedField "sinks" 8 (.scalar .string)]

def ruleMessage : List Field :=
  [optionalField "from" 1 (.scalar .string),
    optionalField "pattern" 2 (.scalar .string),
    optionalField "directive" 3 (.message directiveMessage)]

def cliOtelMessage : List Field :=
  [optionalField "endpoint" 1 (.scalar .string),
    optionalField "script" 2 (.scalar .string),
    optionalField "debug" 3 (.scalar .bool)]

def bootstrapDataMessage : List Field :=
  [optionalField "cliOtel" 1 (.message cliOtelMessage)]

def spawnConfigMessage : List Field :=
  [optionalField "entry" 1 (.scalar .string),
    optionalField "root" 2 (.scalar .string),
    repeatedField "rules" 3 (.message ruleMessage),
    optionalField "bootstrapData" 4 (.message bootstrapDataMessage)]

def envelopeMessage : List Field :=
  [plainField "kind" 1 (.scalar .enum),
    optionalField "nodeId" 2 (.scalar .string),
    optionalField "load" 3 (.message loadMessage),
    repeatedField "peers" 4 (.message peerMessage),
    optionalField "peer" 5 (.message peerMessage),
    optionalField "ts" 6 (.scalar .double),
    optionalField "spawnReqId" 7 (.scalar .string),
    optionalField "parentPortId" 8 (.scalar .string),
    optionalField "config" 9 (.message spawnConfigMessage),
    optionalField "childPortId" 10 (.scalar .string),
    optionalField "ok" 11 (.scalar .bool),
    optionalField "error" 12 (.scalar .string),
    optionalField "realmId" 13 (.scalar .string),
    optionalField "lastPortSeq" 14 (.scalar .uint64),
    optionalField "fromPort" 15 (.scalar .string),
    optionalField "toPort" 16 (.scalar .string),
    repeatedField "payload" 17 (.scalar .bytes),
    optionalField "seq" 18 (.scalar .uint64),
    optionalField "payloadFormat" 19 (.scalar .uint32)]

inductive MessageKind
  | hello
  | welcome
  | peerUp
  | peerDown
  | heartbeat
  | spawn
  | spawnAck
  | realmExit
  | terminate
  | portMsg
deriving DecidableEq

namespace MessageKind

/-- The cases of the `switch` over a message, in their order. -/
def cases : List MessageKind :=
  [hello, welcome, peerUp, peerDown, heartbeat, spawn, spawnAck, realmExit, terminate, portMsg]

/-- The number that stands for the kind on the wire. -/
def number : MessageKind → ℕ
  | hello => 1
  | welcome => 2
  | peerUp => 3
  | peerDown => 4
  | heartbeat => 5
  | spawn => 6
  | spawnAck => 7
  | realmExit => 8
  | terminate => 9
  | portMsg => 10

/-- The property `t` of a message of the kind. -/
def text : MessageKind → String
  | hello => "HELLO"
  | welcome => "WELCOME"
  | peerUp => "PEER_UP"
  | peerDown => "PEER_DOWN"
  | heartbeat => "HEARTBEAT"
  | spawn => "SPAWN"
  | spawnAck => "SPAWN_ACK"
  | realmExit => "REALM_EXIT"
  | terminate => "TERMINATE"
  | portMsg => "PORT_MSG"

/-- The kind with this property `t`. -/
def ofText? : Value → Option MessageKind
  | .string s => cases.find? fun kind => kind.text = s
  | _ => none

def ofNumber? : Value → Option MessageKind
  | .number x => cases.find? fun kind => x.toInt? = some (kind.number : ℤ)
  | _ => none

end MessageKind

inductive DirectiveKind
  | inherit
  | block
  | remap
  | source
  | facade
deriving DecidableEq

namespace DirectiveKind

def cases : List DirectiveKind := [inherit, block, remap, source, facade]

/-- The number that stands for the kind on the wire. -/
def number : DirectiveKind → ℕ
  | inherit => 1
  | block => 2
  | remap => 3
  | source => 4
  | facade => 5

/-- The property `type` of a directive of the kind. -/
def text : DirectiveKind → String
  | inherit => "inherit"
  | block => "block"
  | remap => "remap"
  | source => "source"
  | facade => "facade"

/-- The kind with this property `type`. -/
def ofText? (s : String) : Option DirectiveKind := cases.find? fun kind => kind.text = s

def ofNumber? : Value → Option DirectiveKind
  | .number x => cases.find? fun kind => x.toInt? = some (kind.number : ℤ)
  | _ => none

end DirectiveKind

/-! ## Checks -/

/-- The errors of the protocol; each message begins with `cluster protocol: `. -/
inductive ProtocolError
  /-- `${key} must be a string` -/
  | mustBeString (key : String)
  /-- `${key} must be a boolean` -/
  | mustBeBoolean (key : String)
  /-- `${key} must be a finite number` -/
  | mustBeFinite (key : String)
  /-- `${key} must be a non-negative integer` or `${key} must be a positive integer` -/
  | mustBeInteger (key : String) (allowZero : Bool)
  /-- `${key} exceeds the safe integer range` -/
  | exceedsSafeRange (key : String)
  /-- `${key} must be an object` -/
  | mustBeObject (key : String)
  /-- `${key} must be an array` -/
  | mustBeArray (key : String)
  /-- `${key} must be an array of strings` -/
  | mustBeStrings (key : String)
  /-- `payload must be an array of Uint8Array values` -/
  | mustBePayload
  /-- `${key} is missing` -/
  | missing (key : String)
  /-- `${key} is malformed` -/
  | malformed (key : String)
  /-- `${key} is malformed: ${message}` -/
  | malformedBy (key : String) (error : ProtocolError)
  /-- `nodeId must not contain "/"` -/
  | slash
  /-- `load.cpu must be in [0, 1]` -/
  | cpuRange
  /-- `load.memory must be non-negative` -/
  | memoryRange
  /-- `unknown rule directive '${type}'` or `unknown rule directive ${value.kind}` -/
  | unknownDirective (kind : Value)
  /-- `unknown message type '${msg.t}'` or `unknown message type ${value.kind}` -/
  | unknownMessage (kind : Value)
  /-- What `new Scanner` and `EnvelopeMessage.encode` make of an identifier that is no string. -/
  | noText (key : String)
  /-- An error of `EnvelopeMessage.encode`. -/
  | protobuf (error : ProtobufError)
  /-- `invalid protobuf: ${error}` -/
  | invalidProtobuf (error : ProtobufError)

def isRecord : Value → Bool
  | .object _ | .bytes _ => true
  | _ => false

def requireString (obj : Value) (key : String) : Except ProtocolError String :=
  match obj.get key with
  | .string s => .ok s
  | _ => .error (.mustBeString key)

def requireBoolean (obj : Value) (key : String) : Except ProtocolError Bool :=
  match obj.get key with
  | .bool b => .ok b
  | _ => .error (.mustBeBoolean key)

def requireFiniteNumber (obj : Value) (key : String) : Except ProtocolError Double :=
  match obj.get key with
  | .number x => if ¬ x.isFinite then .error (.mustBeFinite key) else .ok x
  | _ => .error (.mustBeFinite key)

def requireSequence (obj : Value) (key : String) (allowZero : Bool) :
    Except ProtocolError Double := do
  let value ← requireFiniteNumber obj key
  match value.toInt? with
  | some z =>
    if z < (if allowZero then 0 else 1) then .error (.mustBeInteger key allowZero) else .ok value
  | none => .error (.mustBeInteger key allowZero)

variable (value : Value)

/-- `x === undefined ? {} : { k: check(x) }`. -/
def ifDefined (check : Except ProtocolError Value) : Except ProtocolError Value :=
  if value.isUndefined then .ok .undefined else check

def parseLoad : Except ProtocolError Value :=
  if ¬ isRecord value then .error (.mustBeObject "load")
  else do
    let cpu ← requireFiniteNumber value "cpu"
    let memory ← requireFiniteNumber value "memory"
    if cpu.isNegative ∨ cpu.exceedsOne then .error .cpuRange
    else if memory.isNegative then .error .memoryRange
    else return .ofProperties [("cpu", .number cpu), ("memory", .number memory)]

def isIdCode (code : ℕ) : Bool :=
  (48 ≤ code ∧ code ≤ 57) ∨ (65 ≤ code ∧ code ≤ 90) ∨ (97 ≤ code ∧ code ≤ 122) ∨ code = 45 ∨
    code = 95 ∨ code = 46

/-- `sc.eatWhile`, with what is left. -/
def eatWhile (p : ℕ → Bool) (l : List Char) : List Char × List Char :=
  l.span fun c => p c.toNat

def parseHandleId (id : Value) (key : String) : Except ProtocolError String :=
  match id with
  | .string id =>
    let (part, rest) := eatWhile isIdCode id.toList
    if part = [] ∨ rest ≠ [] then .error (.malformed key) else .ok id
  | _ => .error (.noText key)

def parseNodeId (id : Value) : Except ProtocolError String := do
  let id ← parseHandleId id "nodeId"
  if '/' ∈ id.toList then .error .slash else .ok id

def parseClusterId (id : Value) (key : String) : Except ProtocolError String :=
  match id with
  | .string id =>
    let (nodeId, rest) := eatWhile isIdCode id.toList
    if nodeId = [] ∨ rest.head? ≠ some '/' then .error (.malformed key)
    else
      let (part, rest) := eatWhile (fun code => isIdCode code ∨ code = 47) rest.tail
      if part = [] ∨ rest ≠ [] then .error (.malformed key) else .ok id
  | _ => .error (.noText key)

/-- `childPortId === '' ? '' : parseClusterId(childPortId, 'childPortId')`. -/
def parseChildPortId (id : Value) : Except ProtocolError String :=
  if id matches .string "" then .ok "" else parseClusterId id "childPortId"

variable (key : String)

def parsePeer : Except ProtocolError Value :=
  if ¬ isRecord value then .error (.mustBeObject key)
  else Except.mapError (.malformedBy key) do
    let nodeId ← parseNodeId (.string (← requireString value "nodeId"))
    let load ← parseLoad (value.get "load")
    return .ofProperties [("nodeId", .string nodeId), ("load", load)]

/-- `(peer, index) => parsePeer(peer, …)`, for the items of an array. -/
def parsePeerItems (items : List Value) : Except ProtocolError (List Value) :=
  items.zipIdx.mapM fun (peer, index) => parsePeer peer s!"peer {index}"

def parsePeers : Value → Except ProtocolError (List Value)
  | .array items => parsePeerItems items
  | _ => .error (.mustBeArray "peers")

/-- `parseSpawnConfig`, given by its properties. -/
def parseSpawnConfig : Except ProtocolError (String × String × List Value × Value) :=
  if ¬ isRecord value then .error (.mustBeObject "config")
  else match value.get "rules" with
    | .array rules => do
      let entry ← requireString value "entry"
      let root ← requireString value "root"
      return (entry, root, rules, value.get "bootstrapData")
    | _ => .error (.mustBeArray "config.rules")

/-! ## Messages to the wire -/

def stringArray : Except ProtocolError Value :=
  match value with
  | .array items =>
    if items.any fun item => ¬ item matches .string _ then .error (.mustBeStrings key)
    else .ok (.array items)
  | _ => .error (.mustBeStrings key)

/-- `value === undefined ? [] : stringArray(value, key)`. -/
def stringArrayOrEmpty : Except ProtocolError Value :=
  if value.isUndefined then .ok (.array []) else stringArray value key

def kindProperty (number : ℕ) : String × Value := ("kind", .number (.ofInt number))

/-- The `base` of a directive. -/
def directiveBase : List (String × Value) :=
  [("exports", .array []), ("streams", .array []), ("sinks", .array [])]

/-- What `encodeDirective` does with an object. -/
def encodeDirectiveObject : Except ProtocolError Value := do
  let type ← requireString value "type"
  match DirectiveKind.ofText? type with
  | some .inherit =>
    return .ofProperties (kindProperty DirectiveKind.inherit.number :: directiveBase)
  | some .block =>
    return .ofProperties (kindProperty DirectiveKind.block.number :: directiveBase)
  | some .remap => do
    let target ← requireString value "target"
    return .ofProperties
      (kindProperty DirectiveKind.remap.number :: ("target", .string target) :: directiveBase)
  | some .source => do
    let code ← requireString value "code"
    let sourceMap ← requireString value "source_map"
    return .ofProperties (kindProperty DirectiveKind.source.number :: ("code", .string code) ::
      ("sourceMap", .string sourceMap) :: directiveBase)
  | some .facade => do
    let specifier ← requireString value "specifier"
    let exported ← stringArray (value.get "exports") "directive.exports"
    let streams ← stringArrayOrEmpty (value.get "streams") "directive.streams"
    let sinks ← stringArrayOrEmpty (value.get "sinks") "directive.sinks"
    return .ofProperties [kindProperty DirectiveKind.facade.number,
      ("specifier", .string specifier), ("exports", exported), ("streams", streams),
      ("sinks", sinks)]
  | none => .error (.unknownDirective (.string type))

def encodeDirective : Except ProtocolError Value :=
  match value with
  | .string s =>
    if s = "inherit" then
      .ok (.ofProperties (kindProperty DirectiveKind.inherit.number :: directiveBase))
    else if s = "block" then
      .ok (.ofProperties (kindProperty DirectiveKind.block.number :: directiveBase))
    else .error (.mustBeObject "rule directive")
  | value =>
    if ¬ isRecord value then .error (.mustBeObject "rule directive")
    else encodeDirectiveObject value

def encodeRule : Except ProtocolError Value :=
  if ¬ isRecord value then .error (.mustBeObject "config rule")
  else do
    let origin ← ifDefined (value.get "from") (Value.string <$> requireString value "from")
    let pattern ← requireString value "pattern"
    let directive ← encodeDirective (value.get "directive")
    return .ofProperties
      [("from", origin), ("pattern", .string pattern), ("directive", directive)]

/-- The `cliOtel` of `encodeBootstrapData`. -/
def encodeCliOtel (cliOtel : Value) : Except ProtocolError Value :=
  if ¬ isRecord cliOtel then .error (.mustBeObject "config.bootstrapData.cliOtel")
  else do
    let endpoint ←
      ifDefined (cliOtel.get "endpoint") (Value.string <$> requireString cliOtel "endpoint")
    let script ← ifDefined (cliOtel.get "script") (Value.string <$> requireString cliOtel "script")
    let debug ← ifDefined (cliOtel.get "debug") (Value.bool <$> requireBoolean cliOtel "debug")
    return .ofProperties [("endpoint", endpoint), ("script", script), ("debug", debug)]

def encodeBootstrapData : Except ProtocolError Value :=
  if ¬ isRecord value then .error (.mustBeObject "config.bootstrapData")
  else do
    let cliOtel ← ifDefined (value.get "cliOtel") (encodeCliOtel (value.get "cliOtel"))
    return .ofProperties [("cliOtel", cliOtel)]

def encodeSpawnConfig : Except ProtocolError Value := do
  let (entry, root, rules, bootstrapData) ← parseSpawnConfig value
  let rules ← rules.mapM encodeRule
  let bootstrapData ← ifDefined bootstrapData (encodeBootstrapData bootstrapData)
  return .ofProperties [("entry", .string entry), ("root", .string root), ("rules", .array rules),
    ("bootstrapData", bootstrapData)]

def encodeSequence (allowZero : Bool) :
    Except ProtocolError Value := do
  let sequence ← requireSequence (.ofProperties [(key, value)]) key allowZero
  match sequence.toInt? with
  | some z =>
    if maxSafeInteger < z.natAbs then .error (.exceedsSafeRange key) else .ok (.bigint z)
  | none => .error (.exceedsSafeRange key)

def encodePeer : Except ProtocolError Value := do
  let peer ← parsePeer value "peer"
  return .ofProperties [("nodeId", peer.get "nodeId"), ("load", peer.get "load")]

/-- The `base` of an envelope. -/
def base : List (String × Value) := [("peers", .array []), ("payload", .array [])]

/-- What `toWire` returns for a kind: the properties of its own and those that it always has. -/
def envelope (kind : MessageKind) (properties : List (String × Value)) : Value :=
  .ofProperties (kindProperty kind.number :: properties ++ base)

def toWire (msg : Value) : Except ProtocolError Value :=
  match MessageKind.ofText? (msg.get "t") with
  | some .hello => do
    let nodeId ← parseNodeId (msg.get "nodeId")
    let load ← parseLoad (msg.get "load")
    return envelope .hello [("nodeId", .string nodeId), ("load", load)]
  | some .welcome => do
    let nodeId ← parseNodeId (msg.get "nodeId")
    let peers ← (← parsePeers (msg.get "peers")).mapM encodePeer
    return envelope .welcome [("nodeId", .string nodeId), ("peers", .array peers)]
  | some .peerUp => do
    let peer ← encodePeer (msg.get "peer")
    return envelope .peerUp [("peer", peer)]
  | some .peerDown => do
    let nodeId ← parseNodeId (msg.get "nodeId")
    return envelope .peerDown [("nodeId", .string nodeId)]
  | some .heartbeat => do
    let ts ← requireFiniteNumber (.ofProperties [("ts", msg.get "ts")]) "ts"
    return envelope .heartbeat [("ts", .number ts)]
  | some .spawn => do
    let spawnReqId ← parseHandleId (msg.get "spawnReqId") "spawnReqId"
    let parentPortId ← parseClusterId (msg.get "parentPortId") "parentPortId"
    let config ← encodeSpawnConfig (msg.get "config")
    return envelope .spawn [("spawnReqId", .string spawnReqId),
      ("parentPortId", .string parentPortId), ("config", config)]
  | some .spawnAck => do
    let spawnReqId ← parseHandleId (msg.get "spawnReqId") "spawnReqId"
    let childPortId ← parseChildPortId (msg.get "childPortId")
    return envelope .spawnAck [("spawnReqId", .string spawnReqId),
      ("childPortId", .string childPortId), ("ok", msg.get "ok"), ("error", msg.get "error")]
  | some .realmExit => do
    let realmId ← parseClusterId (msg.get "realmId") "realmId"
    let lastPortSeq ← encodeSequence (msg.get "lastPortSeq") "lastPortSeq" true
    return envelope .realmExit [("realmId", .string realmId), ("lastPortSeq", lastPortSeq),
      ("error", msg.get "error")]
  | some .terminate => do
    let realmId ← parseClusterId (msg.get "realmId") "realmId"
    return envelope .terminate [("realmId", .string realmId)]
  | some .portMsg =>
    match msg.get "payload" with
    | .array parts =>
      if parts.any fun part => ¬ part matches .bytes _ then .error .mustBePayload
      else do
        let fromPort ← parseClusterId (msg.get "fromPort") "fromPort"
        let toPort ← parseClusterId (msg.get "toPort") "toPort"
        let seq ← encodeSequence (msg.get "seq") "seq" false
        return envelope .portMsg [("fromPort", .string fromPort), ("toPort", .string toPort),
          ("payload", .array parts), ("seq", seq), ("payloadFormat", msg.get "payloadFormat")]
    | _ => .error .mustBePayload
  | none => .error (.unknownMessage (msg.get "t"))

def encode (msg : Value) : Except ProtocolError (List UInt8) := do
  (encodeMessage envelopeMessage (← toWire msg)).mapError .protobuf

/-! ## Messages from the wire -/

/-- `requiredWireString`; what is read for a text is a string or `undefined`. -/
def requiredWireString : Except ProtocolError Value :=
  if value.isUndefined then .error (.mustBeString key) else .ok value

def ifNotEmpty : Value → Value
  | .array [] => .undefined
  | value => value

def decodeDirective : Except ProtocolError Value :=
  match DirectiveKind.ofNumber? (value.get "kind") with
  | some .inherit => return .ofProperties [("type", .string DirectiveKind.inherit.text)]
  | some .block => return .ofProperties [("type", .string DirectiveKind.block.text)]
  | some .remap => do
    let target ← requiredWireString (value.get "target") "directive.target"
    return .ofProperties [("type", .string DirectiveKind.remap.text), ("target", target)]
  | some .source => do
    let code ← requiredWireString (value.get "code") "directive.code"
    let sourceMap ← requiredWireString (value.get "sourceMap") "directive.source_map"
    return .ofProperties
      [("type", .string DirectiveKind.source.text), ("code", code), ("source_map", sourceMap)]
  | some .facade => do
    let specifier ← requiredWireString (value.get "specifier") "directive.specifier"
    return .ofProperties [("type", .string DirectiveKind.facade.text), ("specifier", specifier),
      ("exports", value.get "exports"), ("streams", ifNotEmpty (value.get "streams")),
      ("sinks", ifNotEmpty (value.get "sinks"))]
  | none => .error (.unknownDirective (value.get "kind"))

def decodeRule : Except ProtocolError Value :=
  if (value.get "directive").isUndefined then .error (.missing "rule directive")
  else do
    let pattern ← requiredWireString (value.get "pattern") "rule.pattern"
    let directive ← decodeDirective (value.get "directive")
    return .ofProperties
      [("from", value.get "from"), ("pattern", pattern), ("directive", directive)]

/-- The items of an array that `EnvelopeMessage` has read. -/
def items : Value → List Value
  | .array l => l
  | _ => []

def decodeSpawnConfig : Except ProtocolError Value := do
  let entry ← requiredWireString (value.get "entry") "config.entry"
  let root ← requiredWireString (value.get "root") "config.root"
  let rules ← (items (value.get "rules")).mapM decodeRule
  return .ofProperties [("entry", entry), ("root", root), ("rules", .array rules),
    ("bootstrapData", value.get "bootstrapData")]

def decodeSequence (allowZero : Bool) : Except ProtocolError Value :=
  match value with
  | .bigint z =>
    if maxSafeInteger < z then .error (.exceedsSafeRange key)
    else Value.number <$>
      requireSequence (.ofProperties [(key, .number (.ofInt z))]) key allowZero
  | _ => .error (.missing key)

def message (kind : MessageKind) (properties : List (String × Value)) : Value :=
  .ofProperties (("t", .string kind.text) :: properties)

/-- The `switch` of `decode`. -/
def fromWire : Except ProtocolError Value :=
  match MessageKind.ofNumber? (value.get "kind") with
  | some .hello => do
    let nodeId ← parseNodeId (← requiredWireString (value.get "nodeId") "nodeId")
    let load ← parseLoad (value.get "load")
    return message .hello [("nodeId", .string nodeId), ("load", load)]
  | some .welcome => do
    let nodeId ← parseNodeId (← requiredWireString (value.get "nodeId") "nodeId")
    let peers ← parsePeerItems (items (value.get "peers"))
    return message .welcome [("nodeId", .string nodeId), ("peers", .array peers)]
  | some .peerUp =>
    if (value.get "peer").isUndefined then .error (.missing "peer")
    else do
      let peer ← parsePeer (value.get "peer") "peer"
      return message .peerUp [("peer", peer)]
  | some .peerDown => do
    let nodeId ← parseNodeId (← requiredWireString (value.get "nodeId") "nodeId")
    return message .peerDown [("nodeId", .string nodeId)]
  | some .heartbeat =>
    if (value.get "ts").isUndefined then .error (.mustBeFinite "ts")
    else do
      let ts ← requireFiniteNumber (.ofProperties [("ts", value.get "ts")]) "ts"
      return message .heartbeat [("ts", .number ts)]
  | some .spawn =>
    if (value.get "config").isUndefined then .error (.missing "config")
    else do
      let spawnReqId ←
        parseHandleId (← requiredWireString (value.get "spawnReqId") "spawnReqId") "spawnReqId"
      let parentPortId ← parseClusterId
        (← requiredWireString (value.get "parentPortId") "parentPortId") "parentPortId"
      let config ← decodeSpawnConfig (value.get "config")
      return message .spawn [("spawnReqId", .string spawnReqId),
        ("parentPortId", .string parentPortId), ("config", config)]
  | some .spawnAck => do
    let childPortId ← requiredWireString (value.get "childPortId") "childPortId"
    if (value.get "ok").isUndefined then .error (.mustBeBoolean "ok")
    else do
      let spawnReqId ←
        parseHandleId (← requiredWireString (value.get "spawnReqId") "spawnReqId") "spawnReqId"
      let childPortId ← parseChildPortId childPortId
      return message .spawnAck [("spawnReqId", .string spawnReqId),
        ("childPortId", .string childPortId), ("ok", value.get "ok"), ("error", value.get "error")]
  | some .realmExit => do
    let realmId ← parseClusterId (← requiredWireString (value.get "realmId") "realmId") "realmId"
    let lastPortSeq ← decodeSequence (value.get "lastPortSeq") "lastPortSeq" true
    return message .realmExit [("realmId", .string realmId), ("lastPortSeq", lastPortSeq),
      ("error", value.get "error")]
  | some .terminate => do
    let realmId ← parseClusterId (← requiredWireString (value.get "realmId") "realmId") "realmId"
    return message .terminate [("realmId", .string realmId)]
  | some .portMsg => do
    let fromPort ←
      parseClusterId (← requiredWireString (value.get "fromPort") "fromPort") "fromPort"
    let toPort ← parseClusterId (← requiredWireString (value.get "toPort") "toPort") "toPort"
    let seq ← decodeSequence (value.get "seq") "seq" false
    return message .portMsg [("fromPort", .string fromPort), ("toPort", .string toPort),
      ("payload", value.get "payload"), ("seq", seq), ("payloadFormat", value.get "payloadFormat")]
  | none => .error (.unknownMessage (value.get "kind"))

def decode (bytes : List UInt8) : Except ProtocolError Value := do
  fromWire (← (decodeMessage envelopeMessage bytes).mapError .invalidProtobuf)

end Fino.Cluster.Codec
