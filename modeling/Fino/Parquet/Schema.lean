import Fino.Parquet.Levels

/-!
# The schema of a file

A schema is a flat list of elements, each node before its children, with their number.
`nodesToSchemaElements` and `schemaElementsToNodes` of `js/data/parquet/nested.ts` write and read
it, with `parquetLeafToArrow` of `js/data/parquet/schema.ts`.
-/

namespace Fino.Parquet

open Lib Lib.Wire
open Protobuf (Value)

inductive Repetition
  | required | optional | repeated
deriving DecidableEq

structure SchemaElement where
  name : String
  type : Option PType := none
  typeLength : Option ℕ := none
  repetitionType : Option Repetition := none
  numChildren : Option ℕ := none
  convertedType : Option ConvertedType := none
  scale : Option ℤ := none
  precision : Option ℕ := none
  logicalType : Option LogicalType := none
deriving DecidableEq

/-- `node.nullable ? Repetition.OPTIONAL : Repetition.REQUIRED`. -/
def repetitionOf (nullable : Bool) : Repetition := if nullable then .optional else .required

def leafElement (name : String) (nullable : Bool) (info : ParquetTypeInfo) : SchemaElement where
  name
  type := some info.physicalType
  typeLength := info.typeLength
  repetitionType := some (repetitionOf nullable)
  convertedType := info.convertedType
  scale := info.scale
  precision := info.precision
  logicalType := info.logicalType

def structElement (name : String) (nullable : Bool) (numChildren : ℕ) : SchemaElement where
  name
  repetitionType := some (repetitionOf nullable)
  numChildren := some numChildren

def listElements (name : String) (nullable : Bool) : List SchemaElement :=
  [{ name
     repetitionType := some (repetitionOf nullable)
     numChildren := some 1
     convertedType := some .list
     logicalType := some .list },
   { name := "list", repetitionType := some .repeated, numChildren := some 1 }]

def mapElements (name : String) (nullable : Bool) : List SchemaElement :=
  [{ name
     repetitionType := some (repetitionOf nullable)
     numChildren := some 1
     convertedType := some .map
     logicalType := some .map },
   { name := "key_value", repetitionType := some .repeated, numChildren := some 2 }]

mutual

/-- `emitElement`, for a node with another name and, for the key of a map, another nullability. The
entries of a map are passed over; with less than two children there is no value. -/
def emitElement (name : String) (nullable : Bool) : Node → Except ParquetError (List SchemaElement)
  | .leaf _ type _ _ => do
    let info ← arrowTypeToParquet type
    return [leafElement name nullable info]
  | .struct _ children => do
    let elements ← emitElements children
    return structElement name nullable children.length :: elements
  | .list _ child => do
    let elements ← emitElement "element" child.info.nullable child
    return listElements name nullable ++ elements
  | .map _ (.struct _ (key :: value :: _)) => do
    let key ← emitElement "key" false key
    let value ← emitElement "value" value.info.nullable value
    return mapElements name nullable ++ (key ++ value)
  | .map _ _ => .error .notObject

/-- `emitElement` for each node. -/
def emitElements : List Node → Except ParquetError (List SchemaElement)
  | [] => return []
  | node :: nodes => do
    let elements ← emitElement node.name node.info.nullable node
    let rest ← emitElements nodes
    return elements ++ rest

end

def nodesToSchemaElements (nodes : List Node) : Except ParquetError (List SchemaElement) := do
  let elements ← emitElements nodes
  return { name := "schema", numChildren := some nodes.length } :: elements

def buildNodes (schema : List (FieldInfo × DataType)) : Except ParquetError (List Node) :=
  buildChildren schema 0 0 []

/-! ## Reading -/

def intFromWidth (bitWidth : ℕ) (signed : Bool) : LeafType :=
  .int (if bitWidth = 8 then 8 else if bitWidth = 16 then 16 else if bitWidth = 32 then 32 else 64)
    signed

def intFromConverted : ConvertedType → LeafType
  | .int8 => .int 8 true
  | .int16 => .int 16 true
  | .int32 => .int 32 true
  | .uint8 => .int 8 false
  | .uint16 => .int 16 false
  | .uint32 => .int 32 false
  | _ => .int 32 true

def timestampFromUnit (unit : TimeUnitId) (isUtc : Bool) : LeafType :=
  .timestamp
    (match unit with
      | .millis => .millisecond
      | .nanos => .nanosecond
      | .micros => .microsecond)
    (if isUtc then some "UTC" else none)

/-- `int96ToEpochNanos`, for a value. -/
def decodeInt96 : Value → Except ParquetError Value
  | .bytes l =>
    if l.length < 12 then .error .notInteger
    else
      let nanosOfDay : ℤ := ofLittleEndian (l.take 8)
      let julianDay : ℤ := ofLittleEndian ((l.drop 8).take 4)
      .ok (.bigint ((julianDay - 2440588) * (86400 * 1000000000) + nanosOfDay))
  | _ => .error .notBytes

/-- `BigInt(v)`, for a number or a `bigint`. -/
def decodeNumber : Value → Except ParquetError Value
  | .bigint z => .ok (.bigint z)
  | .number x => x.toInt?.elim (.error .notInteger) fun z => .ok (.bigint z)
  | _ => .error .notInteger

/-- The type that is read for a leaf, with its converters. -/
structure LeafInfo where
  type : LeafType
  decode : Value → Except ParquetError Value := .ok
  encode : Value → Value := id

/-- The scale and the precision in a logical type. -/
def decimalOf : Option LogicalType → Option (ℤ × ℕ)
  | some (.decimal scale precision) => some (scale, precision)
  | _ => none

variable (el : SchemaElement)

/-- The decimal type that an element says, if it does not say its precision. -/
def decimalFrom (precision : ℕ) (bitWidth : DecimalWidth) : LeafType :=
  .decimal (el.precision.getD (((decimalOf el.logicalType).map Prod.snd).getD precision))
    (el.scale.getD (((decimalOf el.logicalType).map Prod.fst).getD 0)) bitWidth

/-- `parquetLeafToArrow` for `INT32`. -/
def int32Leaf : LeafType :=
  if el.logicalType = some .date ∨ el.convertedType = some .date then .date .day
  else
    match el.logicalType, el.convertedType with
    | some (.time _ _), _ | _, some .timeMillis => .time .millisecond 32
    | some (.integer bitWidth isSigned), _ => intFromWidth bitWidth isSigned
    | _, some converted => intFromConverted converted
    | _, none => .int 32 true

/-- `parquetLeafToArrow` for `INT64`. -/
def int64Leaf : LeafType :=
  match el.logicalType, el.convertedType with
  | some (.timestamp isAdjustedToUTC unit), _ => timestampFromUnit unit isAdjustedToUTC
  | _, some .timestampMillis => .timestamp .millisecond (some "UTC")
  | _, some .timestampMicros => .timestamp .microsecond (some "UTC")
  | some (.time _ unit), _ => .time (if unit = .nanos then .nanosecond else .microsecond) 64
  | _, some .timeMicros => .time .microsecond 64
  | some (.integer bitWidth isSigned), _ => intFromWidth bitWidth isSigned
  | _, some .uint64 => .int 64 false
  | _, _ => .int 64 true

def parquetLeafToArrow : Except ParquetError LeafInfo :=
  let isDecimal := (decimalOf el.logicalType).isSome ∨ el.convertedType = some .decimal
  match el.type with
  | some .boolean => .ok { type := .bool }
  | some .int32 =>
    if isDecimal then .ok
      { type := decimalFrom el 9 .w32, decode := decodeNumber, encode := encodeNumber }
    else .ok { type := int32Leaf el }
  | some .int64 =>
    if isDecimal then .ok { type := decimalFrom el 18 .w64 } else .ok { type := int64Leaf el }
  | some .int96 => .ok { type := .timestamp .nanosecond none, decode := decodeInt96 }
  | some .float => .ok { type := .float .single }
  | some .double => .ok { type := .float .double }
  | some .byteArray =>
    if isDecimal then .ok
      { type := .decimal (el.precision.getD 38) (el.scale.getD 0) .w128
        decode := decodeDecimal
        encode := encodeDecimal 16 }
    else if el.logicalType = some .string ∨ el.convertedType = some .utf8 ∨
        el.convertedType = some .enum ∨ el.convertedType = some .json then
      .ok { type := .utf8, decode := decodeText }
    else .ok { type := .binary }
  | some .fixedLenByteArray =>
    let len := el.typeLength.getD 0
    if el.logicalType = some .float16 then .ok
      { type := .float .half, decode := decodeHalf, encode := encodeHalf }
    else if isDecimal then .ok
      { type := decimalFrom el 38 (if 16 < len then .w256 else .w128)
        decode := decodeDecimal
        encode := encodeDecimal len }
    else .ok { type := .fixedSizeBinary len }
  | none => .error (.unsupported none)

/-- The leaf that `parseNode` makes of an element without children. -/
def parseLeaf (nullable : Bool) (parentDef parentRep : ℕ)
    (path : List String) : Except ParquetError Node := do
  let leaf ← parquetLeafToArrow el
  return .leaf ⟨el.name, nullable, parentDef + nullable.toNat, parentRep⟩ leaf.type
    { physicalType := el.type.getD .byteArray
      typeLength := el.typeLength
      decode := leaf.decode
      encode := leaf.encode } (path ++ [el.name])

def parseNodes (parse : List SchemaElement → Except ParquetError (Node × List SchemaElement)) :
    ℕ → List SchemaElement → Except ParquetError (List Node × List SchemaElement)
  | 0, elements => .ok ([], elements)
  | n + 1, elements => do
    let (node, elements) ← parse elements
    let (nodes, elements) ← parseNodes parse n elements
    return (node :: nodes, elements)

/-- `parseNode`, for the elements from the cursor on; each call takes an element first. -/
def parseNode : ℕ → List SchemaElement → ℕ → ℕ → List String →
    Except ParquetError (Node × List SchemaElement)
  | depth + 1, el :: elements, parentDef, parentRep, path =>
    let nullable := decide (el.repetitionType ≠ some .required)
    let numChildren := el.numChildren.getD 0
    let defLevel := parentDef + nullable.toNat
    if numChildren = 0 then do
      let node ← parseLeaf el nullable parentDef parentRep path
      return (node, elements)
    else if el.convertedType = some .list ∨ el.logicalType = some .list then do
      let (element, elements) ← parseNode depth elements.tail (defLevel + 1) (parentRep + 1)
        (path ++ [el.name, "list"])
      return (.list ⟨el.name, nullable, defLevel, parentRep + 1⟩ element, elements)
    else if el.convertedType = some .map ∨ el.convertedType = some .mapKeyValue ∨
        el.logicalType = some .map then
      match elements with
      | [] => .error .notObject
      | keyValue :: elements => do
        let (children, elements) ← parseNodes
          (parseNode depth · (defLevel + 1) (parentRep + 1) (path ++ [el.name, "key_value"]))
          (keyValue.numChildren.getD 2) elements
        return (.map ⟨el.name, nullable, defLevel, parentRep + 1⟩
          (.struct ⟨"entries", false, defLevel + 1, parentRep + 1⟩ children), elements)
    else do
      let (children, elements) ← parseNodes
        (parseNode depth · defLevel parentRep (path ++ [el.name])) numChildren elements
      return (.struct ⟨el.name, nullable, defLevel, parentRep⟩ children, elements)
  | _, _, _, _, _ => .error .truncated

def schemaElementsToNodes (elements : List SchemaElement) : Except ParquetError (List Node) :=
  match elements with
  | [] => .error .notObject
  | root :: elements => do
    let (nodes, _) ← parseNodes (parseNode elements.length · 0 0 []) (root.numChildren.getD 0)
      elements
    return nodes

end Fino.Parquet
