import Fino.Parquet.Leaf

/-!
# Column trees

The trees of `js/data/parquet/nested.ts`: a node for each Arrow field with its levels (`buildNode`).
`shredColumn` puts a column into one stream for each leaf, with a slot for each value and each place
where one is missing, and `assembleTree` reads the streams again. A function that reaches streams
through a map of leaves is given those of its node, in the order of `collectLeaves`; a cursor is the
part of its stream that is left.
-/

namespace Fino.Parquet

open Lib
open Protobuf (Value)

/-- The name of an Arrow field and whether it may be null. -/
structure FieldInfo where
  name : String
  nullable : Bool
deriving DecidableEq

/-- An Arrow type. The child of a list is the field of its items, that of a map the field of its
entries. -/
inductive DataType
  | leaf (type : LeafType)
  | struct (children : List (FieldInfo × DataType))
  | list (item : FieldInfo) (type : DataType)
  | map (entries : FieldInfo) (type : DataType)

structure NodeInfo where
  name : String
  nullable : Bool
  defLevel : ℕ
  repLevel : ℕ
deriving DecidableEq

/-- The tree of a column, with the levels of each node. -/
inductive Node
  | leaf (info : NodeInfo) (type : LeafType) (converters : ParquetTypeInfo) (path : List String)
  | struct (info : NodeInfo) (children : List Node)
  | list (info : NodeInfo) (child : Node)
  | map (info : NodeInfo) (child : Node)

namespace Node

def info : Node → NodeInfo
  | leaf info _ _ _ | struct info _ | list info _ | map info _ => info

/-- `node.name`. -/
def name (node : Node) : String := node.info.name

/-- `node.defLevel`. -/
def defLevel (node : Node) : ℕ := node.info.defLevel

end Node

mutual

def buildNode (field : FieldInfo) : DataType → ℕ → ℕ → List String → Except ParquetError Node
  | .struct children, parentDef, parentRep, path => do
    let defLevel := parentDef + field.nullable.toNat
    let children ← buildChildren children defLevel parentRep (path ++ [field.name])
    return .struct ⟨field.name, field.nullable, defLevel, parentRep⟩ children
  | .list item type, parentDef, parentRep, path => do
    let groupDef := parentDef + field.nullable.toNat
    let repLevel := parentRep + 1
    let child ← buildNode item type (groupDef + 1) repLevel (path ++ [field.name, "list"])
    return .list ⟨field.name, field.nullable, groupDef, repLevel⟩ child
  | .map entries type, parentDef, parentRep, path => do
    let groupDef := parentDef + field.nullable.toNat
    let repLevel := parentRep + 1
    let child ← buildNode entries type (groupDef + 1) repLevel (path ++ [field.name, "key_value"])
    return .map ⟨field.name, field.nullable, groupDef, repLevel⟩ child
  | .leaf type, parentDef, parentRep, path => do
    let converters ← arrowTypeToParquet type
    let defLevel := parentDef + field.nullable.toNat
    return .leaf ⟨field.name, field.nullable, defLevel, parentRep⟩ type converters
      (path ++ [field.name])

def buildChildren : List (FieldInfo × DataType) → ℕ → ℕ → List String →
    Except ParquetError (List Node)
  | [], _, _, _ => return []
  | (field, type) :: fields, parentDef, parentRep, path => do
    let node ← buildNode field type parentDef parentRep path
    let nodes ← buildChildren fields parentDef parentRep path
    return node :: nodes

end

mutual

/-- The number of leaves of a node: `collectLeaves(node).length`. -/
def Node.leafCount : Node → ℕ
  | .leaf _ _ _ _ => 1
  | .struct _ children => leafCounts children
  | .list _ child | .map _ child => child.leafCount

/-- The number of leaves of the children of a struct. -/
def leafCounts : List Node → ℕ
  | [] => 0
  | child :: children => child.leafCount + leafCounts children

end

/-- `LeafStream`, and also what a `LeafCursor` has left of one. -/
structure LeafStream where
  values : List Value := []
  defLevels : List ℕ := []
  repLevels : List ℕ := []

namespace LeafStream

def append (s t : LeafStream) : LeafStream :=
  ⟨s.values ++ t.values, s.defLevels ++ t.defLevels, s.repLevels ++ t.repLevels⟩

def absent (repLevel defLevel : ℕ) : LeafStream := ⟨[], [defLevel], [repLevel]⟩

/-- `cur.li++`. -/
def skip (s : LeafStream) : LeafStream := ⟨s.values, s.defLevels.tail, s.repLevels.tail⟩

end LeafStream

/-- The streams of a node, and those of what comes after it. -/
def join (s t : List LeafStream) : List LeafStream := List.zipWith LeafStream.append s t

mutual

def emitAbsent (repLevel defLevel : ℕ) : Node → List LeafStream
  | .leaf _ _ _ _ => [.absent repLevel defLevel]
  | .struct _ children => emitAbsents repLevel defLevel children
  | .list _ child | .map _ child => emitAbsent repLevel defLevel child

/-- `emitAbsent` for each child. -/
def emitAbsents (repLevel defLevel : ℕ) : List Node → List LeafStream
  | [] => []
  | child :: children =>
    emitAbsent repLevel defLevel child ++ emitAbsents repLevel defLevel children

end

/-- A loop that shreds the values of a list. All but the first have the level `repLevel`. -/
def shredItems (shred : Value → ℕ → List LeafStream) (leafCount repLevel : ℕ) :
    ℕ → List Value → List LeafStream
  | _, [] => List.replicate leafCount {}
  | rep, item :: items =>
    join (shred item rep) (shredItems shred leafCount repLevel repLevel items)

def itemsOf : Value → List Value
  | .array l => l
  | _ => []

/-- What `shredValue` does with a list, and with a map, whose items are its entries. -/
def shredList (shred : Value → ℕ → List LeafStream) (info : NodeInfo) (child : Node)
    (value : Value) (repLevel defLevel : ℕ) : List LeafStream :=
  if isNullish value then emitAbsent repLevel defLevel child
  else if (itemsOf value).isEmpty then emitAbsent repLevel info.defLevel child
  else shredItems shred child.leafCount info.repLevel repLevel (itemsOf value)

/-- `value ?? null`. -/
def orNull (v : Value) : Value := if isNullish v then .null else v

/-- `{ key: k, value: v }`. -/
def entry (k v : Value) : Value := .ofProperties [("key", k), ("value", v)]

/-- The entry for `[k, v]`. -/
def entryOf (pair : Value) : Value :=
  entry ((itemsOf pair).getD 0 .undefined) ((itemsOf pair).getD 1 .undefined)

mutual

def shredValue : Node → Value → ℕ → ℕ → List LeafStream
  | .leaf info _ converters _, value, repLevel, defLevel =>
    if isNullish value then [.absent repLevel defLevel]
    else [⟨[converters.encode value], [info.defLevel], [repLevel]⟩]
  | .struct info children, value, repLevel, defLevel =>
    if isNullish value then emitAbsents repLevel defLevel children
    else shredFields children value repLevel info.defLevel
  | .list info child, value, repLevel, defLevel =>
    shredList (fun item rep => shredValue child item rep (info.defLevel + 1)) info child
      value repLevel defLevel
  | .map info child, value, repLevel, defLevel =>
    shredList (fun pair rep => shredValue child (entryOf pair) rep (info.defLevel + 1)) info child
      value repLevel defLevel

/-- The properties of an object, for the children of a struct. -/
def shredFields : List Node → Value → ℕ → ℕ → List LeafStream
  | [], _, _, _ => []
  | child :: children, obj, repLevel, defLevel =>
    shredValue child (orNull (obj.get child.name)) repLevel defLevel ++
      shredFields children obj repLevel defLevel

end

/-- `shredColumn`, for the rows that the vector has. -/
def shredColumn (node : Node) (rows : List Value) : List LeafStream :=
  shredItems (fun row rep => shredValue node row rep 0) node.leafCount 0 0 rows

/-! ## Assembling values -/

/-- `firstLeaf` comes to a leaf: it reads the first child of each node, which a struct without
children does not have. -/
def Node.hasFirstLeaf : Node → Bool
  | leaf _ _ _ _ => true
  | struct _ [] => false
  | struct _ (child :: _) => child.hasFirstLeaf
  | list _ child | map _ child => child.hasFirstLeaf

variable (cursors : List LeafStream)

/-- `peekDef`, for cursors of which the first one is that of `firstLeaf`. -/
def peekDef : ℕ :=
  (cursors.head?.bind fun cur => cur.defLevels.head?).getD 0

def peekRep : ℕ :=
  (cursors.head?.bind fun cur => cur.repLevels.head?).getD 0

/-- The next value of a leaf, with the cursor after it. -/
def takeLeaf (defLevel : ℕ) (cur : LeafStream) : Value × LeafStream :=
  if cur.defLevels.head?.any (defLevel ≤ ·) then
    (cur.values.headD .undefined, { cur.skip with values := cur.values.tail })
  else (.null, cur.skip)

/-- The loop of a list. Each turn takes a slot of the first leaf, and past the last slot `peekRep`
is zero, so as many turns as slots are enough. -/
def assembleItems
    (assemble : List LeafStream → Except ParquetError (Value × List LeafStream)) (repLevel : ℕ) :
    ℕ → List LeafStream → Except ParquetError (List Value × List LeafStream)
  | 0, cursors => .ok ([], cursors)
  | turns + 1, cursors =>
    if repLevel ≤ peekRep cursors then do
      let (item, cursors) ← assemble cursors
      let (items, cursors) ← assembleItems assemble repLevel turns cursors
      return (item :: items, cursors)
    else .ok ([], cursors)

/-- The number of slots that the first cursor has left. -/
def slots : ℕ :=
  cursors.head?.elim 0 fun cur => cur.repLevels.length

/-- What `assembleValue` does with a list, and with a map, whose items are its entries. -/
def assembleList (assemble : List LeafStream → Except ParquetError (Value × List LeafStream))
    (info : NodeInfo) (child : Node) (cursors : List LeafStream) :
    Except ParquetError (Value × List LeafStream) :=
  if child.hasFirstLeaf then
    if peekDef cursors < info.defLevel then .ok (.null, cursors.map LeafStream.skip)
    else if peekDef cursors = info.defLevel then .ok (.array [], cursors.map LeafStream.skip)
    else do
      let (first, cursors) ← assemble cursors
      let (items, cursors) ← assembleItems assemble info.repLevel (slots cursors) cursors
      return (.array (first :: items), cursors)
  else .error .notObject

/-- `[e.key, e.value]`. -/
def pairOf (e : Value) : Except ParquetError Value :=
  if isNullish e then .error .notObject else .ok (.array [e.get "key", e.get "value"])

mutual

/-- `assembleValue`. It begins with `repLeaf`, and so with `firstLeaf`. -/
def assembleValue : Node → List LeafStream → Except ParquetError (Value × List LeafStream)
  | .leaf info _ _ _, cursors =>
    match cursors with
    | [] => .error .notObject
    | cur :: cursors =>
      let (value, cur) := takeLeaf info.defLevel cur
      .ok (value, cur :: cursors)
  | .struct info children, cursors =>
    if (Node.struct info children).hasFirstLeaf then
      if peekDef cursors < info.defLevel then .ok (.null, cursors.map LeafStream.skip)
      else do
        let (properties, cursors) ← assembleFields children cursors
        return (.ofProperties properties.reverse, cursors)
    else .error .notObject
  | .list info child, cursors => assembleList (assembleValue child) info child cursors
  | .map info child, cursors =>
    let assembleEntry (cursors : List LeafStream) := do
      let (e, cursors) ← assembleValue child cursors
      let pair ← pairOf e
      return (pair, cursors)
    assembleList assembleEntry info child cursors

/-- The children of a struct, each from its own cursors. A name that comes twice is assigned
twice. -/
def assembleFields : List Node → List LeafStream →
    Except ParquetError (List (String × Value) × List LeafStream)
  | [], _ => return ([], [])
  | child :: children, cursors => do
    let (value, done) ← assembleValue child (cursors.take child.leafCount)
    let (properties, rest) ← assembleFields children (cursors.drop child.leafCount)
    return ((child.name, value) :: properties, done ++ rest)

end

/-- The loop of `assembleTree`. -/
def assembleRows (node : Node) : ℕ → List LeafStream →
    Except ParquetError (List Value × List LeafStream)
  | 0, cursors => .ok ([], cursors)
  | n + 1, cursors => do
    let (row, cursors) ← assembleValue node cursors
    let (rows, cursors) ← assembleRows node n cursors
    return (row :: rows, cursors)

/-! ## Vectors -/

/-- The vectors that `buildNested` makes. `validity` says which places are not null; a vector
without a bitmap has no null. -/
inductive ArrowVector
  | leaf (values : List Value)
  | struct (validity : List Bool) (children : List (String × ArrowVector))
  | list (validity : List Bool) (offsets : List ℕ) (child : ArrowVector)
  | map (validity : List Bool) (offsets : List ℕ) (entries : ArrowVector)

namespace ArrowVector

/-- `vector.length`. -/
def length : ArrowVector → ℕ
  | leaf values => values.length
  | struct validity _ | list validity _ _ | map validity _ _ => validity.length

/-- The names of the children, in order: `Object.keys` of a value. -/
def keys : ArrowVector → List String
  | struct _ children => children.map Prod.fst
  | _ => []

def places (offsets : List ℕ) (i : ℕ) : List ℕ :=
  (List.range (offsets.getD (i + 1) 0 - offsets.getD i 0)).map (offsets.getD i 0 + ·)

mutual

/-- `vector.get(i)`. -/
def get : ArrowVector → ℕ → Value
  | leaf values, i => values.getD i .undefined
  | struct validity children, i =>
    if validity.getD i true then .ofProperties (getChildren children i).reverse else .null
  | list validity offsets child, i =>
    if validity.getD i true then .array ((places offsets i).map child.get) else .null
  | map validity offsets entries, i =>
    if validity.getD i true then
      .array ((places offsets i).map fun j =>
        .array [(entries.get j).get (entries.keys.getD 0 ""),
          (entries.get j).get (entries.keys.getD 1 "")])
    else .null

/-- The properties that the children of a struct give. -/
def getChildren : List (String × ArrowVector) → ℕ → List (String × Value)
  | [], _ => []
  | (name, child) :: children, i => (name, child.get i) :: getChildren children i

end

/-- `vector.toArray()`. -/
def toArray (vector : ArrowVector) : List Value := (List.range vector.length).map vector.get

end ArrowVector

def validityOf (values : List Value) : List Bool := values.map fun v => !isNullish v

/-- The offsets of lists: for each place, the number of items before it. -/
def offsetsOf (values : List Value) : List ℕ :=
  (List.range (values.length + 1)).map fun i => ((values.take i).flatMap itemsOf).length

mutual

def buildNested : Node → List Value → Except ParquetError ArrowVector
  | .leaf _ _ converters _, values => do
    let values ← values.mapM fun v => if isNullish v then .ok .null else converters.decode v
    return .leaf values
  | .struct _ children, values => do
    let children ← buildFields children values
    return .struct (validityOf values) children
  | .list _ child, values => do
    let child ← buildNested child (values.flatMap itemsOf)
    return .list (validityOf values) (offsetsOf values) child
  | .map _ child, values => do
    let child ← buildNested child ((values.flatMap itemsOf).map entryOf)
    return .map (validityOf values) (offsetsOf values) child

def buildFields : List Node → List Value → Except ParquetError (List (String × ArrowVector))
  | [], _ => return []
  | child :: children, values => do
    let vector ← buildNested child
      (values.map fun v => if isNullish v then .null else orNull (v.get child.name))
    let vectors ← buildFields children values
    return (child.name, vector) :: vectors

end

/-- `assembleTree`, with what is left of the streams. -/
def assembleTree (node : Node) (streams : List LeafStream) (numRows : ℕ) :
    Except ParquetError (ArrowVector × List LeafStream) := do
  let (values, cursors) ← assembleRows node numRows streams
  let vector ← buildNested node values
  return (vector, cursors)

end Fino.Parquet
