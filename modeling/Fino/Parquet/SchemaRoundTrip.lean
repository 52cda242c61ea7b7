import Fino.Parquet.Schema

/-!
# Reading the schema that was written

What is read from the elements of a tree is `reread`. Leaves are compared as `Column`s: with their
paths, their types as a file keeps them, and their levels. The elements of a map do not say
that its entries or its key are nullable, nor its children after the first two, and a struct without
children looks like a leaf; in these cases the leaves or their levels are others
(`schemaElementsToNodes_nodesToSchemaElements_iff`). For the converse the definition levels are
compared by their `weight`: no leaf that is read has a higher one than the written leaf.
-/

namespace Fino.Parquet

open Lib List Outcome

/-- A leaf: its `ColumnDescriptor` without the nullability and the converters, which its type
decides. -/
structure Column where
  path : List String
  type : LeafType
  physicalType : PType
  typeLength : Option ℕ
  maxDefinitionLevel : ℕ
  maxRepetitionLevel : ℕ
deriving DecidableEq

/-- The leaf is one of a node of this name. -/
def Column.under (name : String) (c : Column) : Column := { c with path := name :: c.path }

mutual

/-- `collectLeaves`, with the names that `emitElement` gives to the nodes of lists and maps: the
node has the first name, and its first children have the others. -/
def leaves (name : String) (names : List String) : Node → List Column
  | .leaf info type converters _ =>
    [⟨[name], type, converters.physicalType, converters.typeLength, info.defLevel, info.repLevel⟩]
  | .struct _ children => (leavesOf names children).map (.under name)
  | .list _ child => (leaves "element" [] child).map (.under name)
  | .map _ child => (leaves "key_value" ["key", "value"] child).map (.under name)

/-- `collectLeaves` for each child. -/
def leavesOf : List String → List Node → List Column
  | _, [] => []
  | names, child :: children =>
    leaves (names.headD child.name) [] child ++ leavesOf names.tail children

end

def columns (node : Node) : List Column := leaves node.name [] node

/-- The type as a file keeps it: whole seconds become microseconds, a time zone becomes `UTC`, and a
width that Arrow does not have becomes one that it has. -/
def storedType : LeafType → LeafType
  | .int bitWidth signed => .int (if bitWidth ∈ [8, 16, 32] then bitWidth else 64) signed
  | .time unit bitWidth =>
    if bitWidth = 32 then .time .millisecond 32
    else .time (if unit = .nanosecond then .nanosecond else .microsecond) 64
  | .timestamp unit timezone =>
    .timestamp (if unit = .second then .microsecond else unit) (timezone.map fun _ => "UTC")
  | type => type

/-- The leaf, with the type that a file keeps. -/
def Column.stored (c : Column) : Column := { c with type := storedType c.type }

lemma map_stored_map_under (name : String) (l : List Column) :
    (l.map (.under name)).map Column.stored = (l.map Column.stored).map (.under name) := by
  rw [map_map, map_map]
  rfl

lemma Node.entryInduction {P : Node → Prop}
    (leaf : ∀ info type converters path, P (.leaf info type converters path))
    (struct : ∀ info children, (∀ child ∈ children, P child) → P (.struct info children))
    (list : ∀ info child, P child → P (.list info child))
    (map : ∀ info entries key value rest, P key → P value →
      P (.map info (.struct entries (key :: value :: rest))))
    (other : ∀ info child, (∀ entries key value rest,
      child ≠ .struct entries (key :: value :: rest)) → P (.map info child))
    (node : Node) : P node := by
  suffices h : P node ∧ ∀ info children, node = .struct info children → ∀ child ∈ children, P child
    from h.1
  induction node using Node.induction with
  | leaf info type converters path =>
    exact ⟨leaf info type converters path, fun _ _ h => by cases h⟩
  | struct info children ih =>
    refine ⟨struct info children fun child hchild => (ih child hchild).1, ?_⟩
    rintro _ _ ⟨⟩ child hchild
    exact (ih child hchild).1
  | list info child ih => exact ⟨list info child ih.1, fun _ _ h => by cases h⟩
  | map info child ih =>
    refine ⟨?_, fun _ _ h => by cases h⟩
    by_cases hchild : ∃ entries key value rest, child = .struct entries (key :: value :: rest)
    · obtain ⟨entries, key, value, rest, rfl⟩ := hchild
      have hchildren := ih.2 entries (key :: value :: rest) rfl
      exact map info entries key value rest (hchildren key mem_cons_self)
        (hchildren value (mem_cons_of_mem _ mem_cons_self))
    · push Not at hchild
      exact other info child hchild

/-! ## What is read -/

mutual

/-- The tree that is read from the elements of a node. -/
def reread (name : String) (nullable : Bool) : Node → ℕ → ℕ → List String →
    Except ParquetError Node
  | .leaf _ type _ _, parentDef, parentRep, path => do
    let info ← arrowTypeToParquet type
    parseLeaf (leafElement name nullable info) nullable parentDef parentRep path
  | .struct _ [], _, _, _ => .error (.unsupported none)
  | .struct _ (child :: children), parentDef, parentRep, path => do
    let defLevel := parentDef + nullable.toNat
    let nodes ← rereadAll (child :: children) defLevel parentRep (path ++ [name])
    return .struct ⟨name, nullable, defLevel, parentRep⟩ nodes
  | .list _ child, parentDef, parentRep, path => do
    let defLevel := parentDef + nullable.toNat
    let child ← reread "element" child.info.nullable child (defLevel + 1) (parentRep + 1)
      (path ++ [name, "list"])
    return .list ⟨name, nullable, defLevel, parentRep + 1⟩ child
  | .map _ (.struct _ (key :: value :: _)), parentDef, parentRep, path => do
    let defLevel := parentDef + nullable.toNat
    let key ← reread "key" false key (defLevel + 1) (parentRep + 1) (path ++ [name, "key_value"])
    let value ← reread "value" value.info.nullable value (defLevel + 1) (parentRep + 1)
      (path ++ [name, "key_value"])
    return .map ⟨name, nullable, defLevel, parentRep + 1⟩
      (.struct ⟨"entries", false, defLevel + 1, parentRep + 1⟩ [key, value])
  | .map _ _, _, _, _ => .error .notObject

/-- The trees that are read from the elements of nodes. -/
def rereadAll : List Node → ℕ → ℕ → List String → Except ParquetError (List Node)
  | [], _, _, _ => return []
  | node :: nodes, parentDef, parentRep, path => do
    let node ← reread node.name node.info.nullable node parentDef parentRep path
    let nodes ← rereadAll nodes parentDef parentRep path
    return node :: nodes

end

/-! ### One element at a time -/

variable (name : String) (nullable : Bool)

lemma parseNode_leafElement (info : ParquetTypeInfo) (depth parentDef parentRep : ℕ)
    (path : List String) (rest : List SchemaElement) :
    parseNode (depth + 1) (leafElement name nullable info :: rest) parentDef parentRep path = (do
      let node ← parseLeaf (leafElement name nullable info) nullable parentDef parentRep path
      return (node, rest)) := by
  cases nullable <;> rfl

variable (depth parentDef parentRep : ℕ) (path : List String) (rest : List SchemaElement)

lemma parseNode_structElement_zero :
    parseNode (depth + 1) (structElement name nullable 0 :: rest) parentDef parentRep path =
      .error (.unsupported none) := by
  cases nullable <;> rfl

lemma parseNode_structElement_succ (n depth parentDef parentRep : ℕ) (path : List String)
    (rest : List SchemaElement) :
    parseNode (depth + 1) (structElement name nullable (n + 1) :: rest) parentDef parentRep path =
      (do
        let defLevel := parentDef + nullable.toNat
        let (children, rest) ← parseNodes
          (parseNode depth · defLevel parentRep (path ++ [name])) (n + 1) rest
        return (.struct ⟨name, nullable, defLevel, parentRep⟩ children, rest)) := by
  cases nullable <;> rfl

lemma parseNode_listElements :
    parseNode (depth + 1) (listElements name nullable ++ rest) parentDef parentRep path = (do
      let defLevel := parentDef + nullable.toNat
      let (element, rest) ← parseNode depth rest (defLevel + 1) (parentRep + 1)
        (path ++ [name, "list"])
      return (.list ⟨name, nullable, defLevel, parentRep + 1⟩ element, rest)) := by
  cases nullable <;> rfl

lemma parseNode_mapElements :
    parseNode (depth + 1) (mapElements name nullable ++ rest) parentDef parentRep path = (do
      let defLevel := parentDef + nullable.toNat
      let (children, rest) ← parseNodes
        (parseNode depth · (defLevel + 1) (parentRep + 1) (path ++ [name, "key_value"])) 2 rest
      return (.map ⟨name, nullable, defLevel, parentRep + 1⟩
        (.struct ⟨"entries", false, defLevel + 1, parentRep + 1⟩ children), rest)) := by
  cases nullable <;> rfl

/-! ### Whole trees -/

/-- What is read of a node from its elements, whatever follows on them. -/
def ReadsAs (node : Node) : Prop :=
  ∀ name nullable elements, emitElement name nullable node = .ok elements →
    ∀ depth rest parentDef parentRep path, elements.length ≤ depth →
      parseNode depth (elements ++ rest) parentDef parentRep path = (do
        let node ← reread name nullable node parentDef parentRep path
        return (node, rest))

variable {nodes : List Node} {path : List String} {parentDef parentRep : ℕ}
  {elements : List SchemaElement}

lemma parseNodes_emitElements {depth : ℕ} (hnodes : ∀ node ∈ nodes, ReadsAs node)
    (h : emitElements nodes = .ok elements) (hdepth : elements.length ≤ depth) :
    parseNodes (parseNode depth · parentDef parentRep path) nodes.length (elements ++ rest) = (do
      let nodes ← rereadAll nodes parentDef parentRep path
      return (nodes, rest)) := by
  induction nodes generalizing elements with
  | nil =>
    cases h
    rfl
  | cons node nodes ih =>
    obtain ⟨hnode, hnodes⟩ := forall_mem_cons.mp hnodes
    obtain ⟨elements, helements, h⟩ := bind_eq_ok.mp h
    obtain ⟨elements', helements', h⟩ := bind_eq_ok.mp h
    cases h
    rw [length_append] at hdepth
    rw [length_cons, parseNodes, append_assoc,
      hnode _ _ _ helements depth _ parentDef parentRep path (by omega), rereadAll]
    cases reread node.name node.info.nullable node parentDef parentRep path with
    | error e => rfl
    | ok node' =>
      simp only [bind, Except.bind, pure, Except.pure]
      have hrest := ih hnodes helements' (by omega)
      rw [hrest]
      cases rereadAll nodes parentDef parentRep path <;> rfl

lemma readsAs (node : Node) : ReadsAs node := by
  induction node using Node.entryInduction with
  | leaf info type converters path =>
    intro name nullable elements h depth rest parentDef parentRep path hdepth
    obtain ⟨info, hinfo, h⟩ := bind_eq_ok.mp h
    cases h
    obtain ⟨depth, rfl⟩ := Nat.exists_eq_add_of_le' hdepth
    rw [reread, hinfo]
    exact parseNode_leafElement name nullable info depth parentDef parentRep path rest
  | struct info children ih =>
    intro name nullable elements h depth rest parentDef parentRep path hdepth
    obtain ⟨elements, helements, h⟩ := bind_eq_ok.mp h
    cases h
    obtain ⟨depth, rfl⟩ := Nat.exists_eq_add_of_le' (Nat.le_of_add_left_le hdepth)
    rw [cons_append]
    cases children with
    | nil => exact parseNode_structElement_zero name nullable depth parentDef parentRep path _
    | cons child children =>
      rw [length_cons, parseNode_structElement_succ, reread]
      dsimp only
      rw [← length_cons,
        parseNodes_emitElements rest ih helements (Nat.le_of_add_le_add_right hdepth)]
      cases rereadAll (child :: children) (parentDef + nullable.toNat) parentRep
        (path ++ [name]) <;> rfl
  | list info child ih =>
    intro name nullable elements h depth rest parentDef parentRep path hdepth
    obtain ⟨elements, helements, h⟩ := bind_eq_ok.mp h
    cases h
    rw [length_append] at hdepth
    have hlength : (listElements name nullable).length = 2 := rfl
    obtain ⟨depth, rfl⟩ := Nat.exists_eq_add_of_le' (show 1 ≤ depth by omega)
    rw [append_assoc, parseNode_listElements, reread]
    dsimp only
    rw [ih _ _ _ helements depth rest _ _ _ (by omega)]
    cases reread "element" child.info.nullable child (parentDef + nullable.toNat + 1)
      (parentRep + 1) (path ++ [name, "list"]) <;> rfl
  | map info entries key value rest hkey hvalue =>
    intro name nullable elements h depth rest parentDef parentRep path hdepth
    obtain ⟨keys, hkeys, h⟩ := bind_eq_ok.mp h
    obtain ⟨values, hvalues, h⟩ := bind_eq_ok.mp h
    cases h
    rw [length_append, length_append] at hdepth
    have hlength : (mapElements name nullable).length = 2 := rfl
    obtain ⟨depth, rfl⟩ := Nat.exists_eq_add_of_le' (show 1 ≤ depth by omega)
    rw [append_assoc, parseNode_mapElements, reread, append_assoc]
    dsimp only
    rw [parseNodes, hkey _ _ _ hkeys depth _ _ _ _ (by omega)]
    cases reread "key" false key (parentDef + nullable.toNat + 1) (parentRep + 1)
      (path ++ [name, "key_value"]) with
    | error e => rfl
    | ok key' =>
      simp only [bind, Except.bind, pure, Except.pure, parseNodes]
      rw [hvalue _ _ _ hvalues depth _ _ _ _ (by omega)]
      cases reread "value" value.info.nullable value (parentDef + nullable.toNat + 1)
        (parentRep + 1) (path ++ [name, "key_value"]) <;> rfl
  | other info child hchild =>
    intro name nullable elements h
    rw [emitElement] at h
    · cases h
    · exact fun entries key value rest => hchild entries key value rest

/-! ## What the elements say -/

mutual

/-- The definition levels of the leaves. -/
def defLevels : Node → List ℕ
  | .leaf info _ _ _ => [info.defLevel]
  | .struct _ children => defLevelsOf children
  | .list _ child | .map _ child => defLevels child

def defLevelsOf : List Node → List ℕ
  | [] => []
  | child :: children => defLevels child ++ defLevelsOf children

end

mutual

/-- No struct is without children, and of a map neither the entries nor the key are nullable, and
nothing is behind the value. -/
def isRecorded : Node → Bool
  | .leaf _ _ _ _ => true
  | .struct _ children => !children.isEmpty && allRecorded children
  | .list _ child => isRecorded child
  | .map _ (.struct entries (key :: value :: rest)) =>
    !entries.nullable && !key.info.nullable && (defLevelsOf rest).isEmpty &&
      (isRecorded key && isRecorded value)
  | .map _ _ => false

def allRecorded : List Node → Bool
  | [] => true
  | child :: children => isRecorded child && allRecorded children

end

mutual

lemma map_leaves (name : String) (names : List String) :
    ∀ node, (leaves name names node).map Column.maxDefinitionLevel = defLevels node
  | .leaf _ _ _ _ => rfl
  | .struct _ children => by
    rw [leaves, map_map, defLevels, ← map_leavesOf names children]
    rfl
  | .list _ child => by
    rw [leaves, map_map, defLevels, ← map_leaves "element" [] child]
    rfl
  | .map _ child => by
    rw [leaves, map_map, defLevels, ← map_leaves "key_value" ["key", "value"] child]
    rfl

lemma map_leavesOf (names : List String) :
    ∀ children, (leavesOf names children).map Column.maxDefinitionLevel = defLevelsOf children
  | [] => rfl
  | child :: children => by
    rw [leavesOf, map_append, map_leaves, map_leavesOf, defLevelsOf]

end

variable {node : Node} {nullable : Bool} {name : String}

lemma intConverted_mem (bitWidth : ℕ) (signed : Bool) : intConverted bitWidth signed ∈
    [.int8, .int16, .int32, .int64, .uint8, .uint16, .uint32, ConvertedType.uint64] := by
  unfold intConverted
  split_ifs <;> decide

lemma intFromWidth_eq (bitWidth : ℕ) (signed : Bool) :
    intFromWidth bitWidth signed = storedType (.int bitWidth signed) := by
  unfold intFromWidth storedType
  grind

lemma timestampFromUnit_eq (unit : TimeUnit) (timezone : Option String) :
    timestampFromUnit unit.id timezone.isSome = storedType (.timestamp unit timezone) := by
  cases unit <;> cases timezone <;> rfl

section Leaves

variable {type : LeafType} {info : ParquetTypeInfo} (hinfo : arrowTypeToParquet type = .ok info)
include hinfo

/-- The annotations that are written for a type say the type, up to what a file does not keep. -/
lemma exists_parquetLeafToArrow (name : String) (nullable : Bool) :
    ∃ leaf, parquetLeafToArrow (leafElement name nullable info) = .ok leaf ∧
      leaf.type = storedType type := by
  cases type with
  | bool | utf8 | binary | fixedSizeBinary =>
    cases hinfo
    exact ⟨_, rfl, rfl⟩
  | int bitWidth signed =>
    cases hinfo
    rw [← intFromWidth_eq]
    have hmem := intConverted_mem bitWidth signed
    generalize intConverted bitWidth signed = converted at hmem
    simp only [mem_cons, not_mem_nil, or_false] at hmem
    by_cases hwidth : bitWidth ≤ 32
    · rw [if_pos hwidth]
      rcases hmem with rfl | rfl | rfl | rfl | rfl | rfl | rfl | rfl <;> exact ⟨_, rfl, rfl⟩
    · rw [if_neg hwidth]
      rcases hmem with rfl | rfl | rfl | rfl | rfl | rfl | rfl | rfl <;> exact ⟨_, rfl, rfl⟩
  | float precision => cases precision <;> cases hinfo <;> exact ⟨_, rfl, rfl⟩
  | decimal precision scale width => cases width <;> cases hinfo <;> exact ⟨_, rfl, rfl⟩
  | date unit => cases unit <;> cases hinfo; exact ⟨_, rfl, rfl⟩
  | time unit bitWidth =>
    by_cases hwidth : bitWidth = 32 <;>
      simp only [arrowTypeToParquet, storedType, hwidth, if_true, if_false] at hinfo ⊢
    · cases unit <;> cases hinfo <;> exact ⟨_, rfl, rfl⟩
    · cases unit <;> cases hinfo <;> exact ⟨_, rfl, rfl⟩
  | timestamp unit timezone =>
    rw [← timestampFromUnit_eq]
    cases unit <;> cases hinfo <;> exact ⟨_, rfl, rfl⟩
  | other => cases hinfo

/-- The leaf that is read has the type as the file keeps it. -/
lemma parseLeaf_leafElement
    (h : parseLeaf (leafElement name nullable info) nullable parentDef parentRep path = .ok node) :
    node.name = name ∧ leaves name [] node = [⟨[name], storedType type, info.physicalType,
      info.typeLength, parentDef + nullable.toNat, parentRep⟩] := by
  obtain ⟨leaf, hleaf, htype⟩ := exists_parquetLeafToArrow hinfo name nullable
  rw [parseLeaf, hleaf] at h
  cases h
  rw [← htype]
  exact ⟨rfl, rfl⟩

lemma exists_parseLeaf (name : String) (nullable : Bool) (parentDef parentRep : ℕ)
    (path : List String) : ∃ node,
    parseLeaf (leafElement name nullable info) nullable parentDef parentRep path = .ok node := by
  obtain ⟨leaf, hleaf, -⟩ := exists_parquetLeafToArrow hinfo name nullable
  exact ⟨_, bind_eq_ok.mpr ⟨leaf, hleaf, rfl⟩⟩

end Leaves

variable {children : List Node}

/-- The leaves of the children of a struct are found again if those of each child are. -/
lemma exists_rereadAll (h : ∀ child ∈ children, ∃ node,
      reread child.name child.info.nullable child parentDef parentRep path = .ok node ∧
        node.name = child.name ∧
          leaves child.name [] node = (leaves child.name [] child).map Column.stored) :
    ∃ nodes, rereadAll children parentDef parentRep path = .ok nodes ∧
      nodes.map columns = children.map fun child => (columns child).map Column.stored := by
  induction children with
  | nil => exact ⟨[], rfl, rfl⟩
  | cons child children ih =>
    obtain ⟨⟨node, hnode, hname, hleaves⟩, hchildren⟩ := forall_mem_cons.mp h
    obtain ⟨nodes, hnodes, hrest⟩ := ih hchildren
    refine ⟨node :: nodes, ?_, ?_⟩
    · rw [rereadAll, hnode, hnodes]
      rfl
    · rw [map_cons, map_cons, hrest, columns, columns, hname, hleaves]

lemma leavesOf_eq (children : List Node) :
    leavesOf [] children = (children.map columns).flatten := by
  induction children with
  | nil => rfl
  | cons child children ih =>
    rw [leavesOf, tail_nil, ih, map_cons, flatten_cons]
    rfl

lemma allRecorded_iff :
    allRecorded children ↔ ∀ child ∈ children, isRecorded child := by
  induction children with
  | nil => simp [allRecorded]
  | cons child children ih => rw [allRecorded, Bool.and_eq_true, ih, forall_mem_cons]

lemma exists_reread (hnode : node.Leveled parentDef parentRep) (h : isRecorded node)
    (name : String) (path : List String) :
    ∃ node', reread name node.info.nullable node parentDef parentRep path = .ok node' ∧
      node'.name = name ∧ leaves name [] node' = (leaves name [] node).map Column.stored := by
  induction node using Node.entryInduction generalizing parentDef parentRep name path with
  | leaf info type converters path' =>
    obtain ⟨hdef, hrep, hconverters⟩ := hnode
    obtain ⟨node, hnode⟩ := exists_parseLeaf hconverters name info.nullable parentDef parentRep path
    obtain ⟨hname, hleaves⟩ := parseLeaf_leafElement hconverters hnode
    refine ⟨node, ?_, hname, ?_⟩
    · rw [reread, hconverters]
      exact hnode
    · rw [hleaves, leaves, hdef, hrep]
      rfl
  | struct info children ih =>
    obtain ⟨hdef, hrep, hchildren⟩ := hnode
    rw [allLeveled_iff] at hchildren
    rw [isRecorded, Bool.and_eq_true, allRecorded_iff] at h
    obtain ⟨nodes, hnodes, hleaves⟩ := exists_rereadAll fun child hchild =>
      ih child hchild (hchildren child hchild) (h.2 child hchild) child.name (path ++ [name])
    cases children with
    | nil => exact absurd h.1 Bool.false_ne_true
    | cons child children =>
      refine ⟨.struct ⟨name, info.nullable, info.defLevel, parentRep⟩ nodes, ?_, rfl, ?_⟩
      · rw [reread]
        simp only [Node.info, ← hdef, hnodes]
        rfl
      · have hstored : (nodes.map columns).flatten =
            ((child :: children).map columns).flatten.map Column.stored := by
          rw [hleaves, map_flatten, map_map]
          rfl
        rw [leaves, leaves, leavesOf_eq, leavesOf_eq, hstored, map_stored_map_under]
  | list info child ih =>
    obtain ⟨hdef, hrep, hchild⟩ := hnode
    obtain ⟨child', hchild', -, hleaves⟩ := ih hchild h "element" (path ++ [name, "list"])
    refine ⟨.list ⟨name, info.nullable, info.defLevel, info.repLevel⟩ child', ?_, rfl, ?_⟩
    · rw [reread]
      simp only [Node.info, ← hdef, ← hrep]
      simp only [Node.info] at hchild'
      rw [hchild']
      rfl
    · rw [leaves, leaves, hleaves, map_stored_map_under]
  | map info entries key value rest hkey hvalue =>
    obtain ⟨hdef, hrep, hentries, hrep', hchildren⟩ := hnode
    obtain ⟨hkeyed, hvalued, -⟩ := hchildren
    simp only [isRecorded, Bool.and_eq_true, Bool.not_eq_true', List.isEmpty_iff] at h
    obtain ⟨⟨⟨hrequired, hkeyRequired⟩, hrest⟩, hkeyRecorded, hvalueRecorded⟩ := h
    rw [hrequired, Bool.toNat_false, Nat.add_zero] at hentries
    rw [hentries] at hkeyed hvalued
    have hnone : leavesOf [] rest = [] := map_eq_nil_iff.mp ((map_leavesOf [] rest).trans hrest)
    obtain ⟨key', hkey', -, hkeyLeaves⟩ :=
      hkey hkeyed hkeyRecorded "key" (path ++ [name, "key_value"])
    obtain ⟨value', hvalue', -, hvalueLeaves⟩ :=
      hvalue hvalued hvalueRecorded "value" (path ++ [name, "key_value"])
    refine ⟨.map ⟨name, info.nullable, info.defLevel, info.repLevel⟩
      (.struct ⟨"entries", false, info.defLevel + 1, info.repLevel⟩ [key', value']), ?_, rfl, ?_⟩
    · rw [hkeyRequired] at hkey'
      rw [reread]
      simp only [Node.info, ← hdef, ← hrep]
      rw [hkey']
      simp only [Node.info] at hvalue'
      simp only [bind, Except.bind, hvalue']
      rfl
    · simp only [leaves, leavesOf, headD_cons, tail_cons, hkeyLeaves, hvalueLeaves, hnone,
        map_stored_map_under, append_nil, map_append]
  | other info child hchild =>
    rw [isRecorded] at h
    · cases h
    · exact fun entries key value rest => hchild entries key value rest

/-! ## What the elements do not say -/

/-- The sum of definition levels, each counted from one. -/
def weight (levels : List ℕ) : ℕ := (levels.map (· + 1)).sum

lemma weight_append (l l' : List ℕ) : weight (l ++ l') = weight l + weight l' := by
  rw [weight, map_append, sum_append]
  rfl

lemma eq_nil_of_weight_eq_zero {l : List ℕ} (h : weight l = 0) : l = [] := by
  cases l with
  | nil => rfl
  | cons c l =>
    rw [weight, map_cons, sum_cons] at h
    omega

/-- The levels that are read weigh at most what was written, and they weigh the same only under a
condition. -/
structure Lighter (written read : List ℕ) (same : Prop) : Prop where
  pos : 0 < weight read
  le : weight read ≤ weight written
  same_of_eq : weight read = weight written → same

variable {read written : List ℕ} {same same' : Prop} {parentDef' : ℕ}

section

variable (h : Lighter written read same)

include h

lemma Lighter.imp (himp : same → same') : Lighter written read same' :=
  ⟨h.pos, h.le, fun heq => himp (h.same_of_eq heq)⟩

lemma Lighter.append {written' read' : List ℕ} (h' : Lighter written' read' same') :
    Lighter (written ++ written') (read ++ read') (same ∧ same') := by
  have hle := h.le
  have hle' := h'.le
  refine ⟨?_, ?_, fun heq => ?_⟩
  · rw [weight_append]
    exact Nat.add_pos_left h.pos _
  · rw [weight_append, weight_append]
    omega
  · rw [weight_append, weight_append] at heq
    exact ⟨h.same_of_eq (by omega), h'.same_of_eq (by omega)⟩

lemma Lighter.append_left (rest : List ℕ) :
    Lighter (written ++ rest) read (same ∧ rest = []) := by
  have hle := h.le
  refine ⟨h.pos, ?_, fun heq => ?_⟩
  · rw [weight_append]
    omega
  · rw [weight_append] at heq
    exact ⟨h.same_of_eq (by omega), eq_nil_of_weight_eq_zero (by omega)⟩

end

lemma lighter_rereadAll (hne : children ≠ []) (hchildren : ∀ child ∈ children, ∀ node,
      reread child.name child.info.nullable child parentDef' parentRep path = .ok node →
        Lighter (defLevels child) (defLevels node) (isRecorded child ∧ parentDef' = parentDef))
    (h : rereadAll children parentDef' parentRep path = .ok nodes) :
    Lighter (defLevelsOf children) (defLevelsOf nodes)
      (allRecorded children ∧ parentDef' = parentDef) := by
  induction children generalizing nodes with
  | nil => exact absurd rfl hne
  | cons child children ih =>
    obtain ⟨hchild, hchildren⟩ := forall_mem_cons.mp hchildren
    obtain ⟨node, hnode, h⟩ := bind_eq_ok.mp h
    obtain ⟨nodes, hnodes, h⟩ := bind_eq_ok.mp h
    cases h
    have hfirst := hchild node hnode
    cases children with
    | nil =>
      cases hnodes
      simp only [defLevelsOf, append_nil, allRecorded, Bool.and_true]
      exact hfirst
    | cons child' children =>
      rw [defLevelsOf, defLevelsOf, allRecorded, Bool.and_eq_true]
      refine (hfirst.append (ih (cons_ne_nil _ _) hchildren hnodes)).imp ?_
      rintro ⟨⟨hrecorded, heq⟩, hrest, -⟩
      exact ⟨⟨hrecorded, hrest⟩, heq⟩

lemma lighter_reread {node' : Node} (hnode : node.Leveled parentDef parentRep) {parentRep' : ℕ}
    (hle : parentDef' + nullable.toNat ≤ node.defLevel)
    (h : reread name nullable node parentDef' parentRep' path = .ok node') :
    Lighter (defLevels node) (defLevels node')
      (isRecorded node ∧ parentDef' + nullable.toNat = node.defLevel) := by
  induction node using Node.entryInduction generalizing
    parentDef parentRep name nullable parentDef' parentRep' path node' with
  | leaf info type converters path' =>
    obtain ⟨converters', hinfo, h⟩ := bind_eq_ok.mp h
    rw [← map_leaves name [] node', (parseLeaf_leafElement hinfo h).2]
    refine ⟨Nat.succ_pos _, Nat.succ_le_succ hle, fun heq => ⟨rfl, ?_⟩⟩
    simp only [weight, defLevels, map_cons, map_nil, sum_cons, sum_nil] at heq
    change parentDef' + nullable.toNat = info.defLevel
    omega
  | struct info children ih =>
    obtain ⟨hdef, -, hchildren⟩ := hnode
    rw [allLeveled_iff] at hchildren
    cases children with
    | nil => cases h
    | cons child children =>
      obtain ⟨nodes, hnodes, h⟩ := bind_eq_ok.mp h
      cases h
      refine lighter_rereadAll (cons_ne_nil _ _) (fun child hchild node hread => ?_) hnodes
      have hlevel : child.defLevel = info.defLevel + child.info.nullable.toNat :=
        (hchildren child hchild).defLevel_eq
      change parentDef' + nullable.toNat ≤ info.defLevel at hle
      refine (ih child hchild (hchildren child hchild) (by omega) hread).imp ?_
      rintro ⟨hrecorded, heq⟩
      exact ⟨hrecorded, by change _ = info.defLevel; omega⟩
  | list info child ih =>
    obtain ⟨hdef, -, hchild⟩ := hnode
    change parentDef' + nullable.toNat ≤ info.defLevel at hle
    have hlevel := hchild.defLevel_eq
    obtain ⟨child', hread, h⟩ := bind_eq_ok.mp h
    cases h
    refine (ih hchild (by omega) hread).imp ?_
    rintro ⟨hrecorded, heq⟩
    exact ⟨hrecorded, by change _ = info.defLevel; omega⟩
  | map info entries key value rest hkey hvalue =>
    obtain ⟨hdef, -, hentries, -, hkeyed, hvalued, -⟩ := hnode
    change parentDef' + nullable.toNat ≤ info.defLevel at hle
    have hkeyLevel := hkeyed.defLevel_eq
    have hvalueLevel := hvalued.defLevel_eq
    obtain ⟨key', hkeyRead, h⟩ := bind_eq_ok.mp h
    obtain ⟨value', hvalueRead, h⟩ := bind_eq_ok.mp h
    cases h
    have hkeyLighter := hkey hkeyed (by rw [Bool.toNat_false]; omega) hkeyRead
    have hvalueLighter := hvalue hvalued (by omega) hvalueRead
    simp only [defLevels, defLevelsOf, append_nil]
    rw [← append_assoc]
    refine ((hkeyLighter.append hvalueLighter).append_left (defLevelsOf rest)).imp ?_
    rintro ⟨⟨⟨hkeyRecorded, hkeyEq⟩, hvalueRecorded, hvalueEq⟩, hrest⟩
    rw [Bool.toNat_false] at hkeyEq
    -- The levels agree only if neither the entries nor the key are nullable.
    have hkeyRequired : key.info.nullable = false := by
      cases hnullable : key.info.nullable with
      | false => rfl
      | true =>
        rw [hnullable, Bool.toNat_true] at hkeyLevel
        omega
    have hrequired : entries.nullable = false := by
      cases hnullable : entries.nullable with
      | false => rfl
      | true =>
        rw [hnullable, Bool.toNat_true] at hentries
        omega
    refine ⟨?_, by change _ = info.defLevel; omega⟩
    rw [isRecorded, hrequired, hkeyRequired, hrest, hkeyRecorded, hvalueRecorded]
    rfl
  | other info child hchild =>
    rw [reread] at h
    · cases h
    · exact fun entries key value rest => hchild entries key value rest

lemma schemaElementsToNodes_eq (h : nodesToSchemaElements nodes = .ok elements) :
    schemaElementsToNodes elements = rereadAll nodes 0 0 [] := by
  obtain ⟨elements, helements, h⟩ := bind_eq_ok.mp h
  cases h
  have hparse : parseNodes (parseNode elements.length · 0 0 []) nodes.length (elements ++ []) = _ :=
    parseNodes_emitElements [] (fun node _ => readsAs node) helements le_rfl
  rw [append_nil] at hparse
  simp only [schemaElementsToNodes, Option.getD_some]
  rw [hparse]
  cases rereadAll nodes 0 0 [] <;> rfl

lemma forall_isRecorded {nodes' : List Node} (hnodes : ∀ node ∈ nodes, node.Leveled 0 0)
    (h : rereadAll nodes 0 0 path = .ok nodes')
    (hleaves : nodes'.map columns = nodes.map fun node => (columns node).map Column.stored) :
    ∀ node ∈ nodes, isRecorded node := by
  induction nodes generalizing nodes' with
  | nil => exact fun node hnode => absurd hnode not_mem_nil
  | cons node nodes ih =>
    obtain ⟨hnode, hnodes⟩ := forall_mem_cons.mp hnodes
    obtain ⟨node', hread, h⟩ := bind_eq_ok.mp h
    obtain ⟨rest, hrest, h⟩ := bind_eq_ok.mp h
    cases h
    obtain ⟨hhead, htail⟩ := List.cons.inj hleaves
    have hlighter := lighter_reread hnode hnode.defLevel_eq.ge hread
    have hlevels : defLevels node' = defLevels node := calc
      _ = (columns node').map Column.maxDefinitionLevel := (map_leaves ..).symm
      _ = ((columns node).map Column.stored).map Column.maxDefinitionLevel := by rw [hhead]
      _ = (columns node).map Column.maxDefinitionLevel := by rw [map_map]; rfl
      _ = defLevels node := map_leaves ..
    exact forall_mem_cons.mpr ⟨(hlighter.same_of_eq (congrArg weight hlevels)).1,
      ih hnodes hrest htail⟩

/-- The schema that is read has the leaves that were written, in their order, with their paths,
types and levels, if and only if the elements say them all. -/
theorem schemaElementsToNodes_nodesToSchemaElements_iff {schema : List (FieldInfo × DataType)}
    {nodes : List Node} {elements : List SchemaElement} (hnodes : buildNodes schema = .ok nodes)
    (helements : nodesToSchemaElements nodes = .ok elements) :
    (∃ nodes', schemaElementsToNodes elements = .ok nodes' ∧
        nodes'.map columns = nodes.map fun node => (columns node).map Column.stored) ↔
      ∀ node ∈ nodes, isRecorded node = true := by
  have hleveled := allLeveled_iff.mp (allLeveled_of_buildChildren hnodes)
  rw [schemaElementsToNodes_eq helements]
  constructor
  · rintro ⟨nodes', hread, hleaves⟩
    exact forall_isRecorded hleveled hread hleaves
  · intro h
    exact exists_rereadAll fun node hnode =>
      exists_reread (hleveled node hnode) (h node hnode) node.name []

/-- A schema of one map from texts to numbers, whose entries have these further children. -/
def mapSchema (entries key : Bool) (rest : List (FieldInfo × DataType)) :
    List (FieldInfo × DataType) :=
  [(⟨"m", true⟩, .map ⟨"entries", entries⟩ (.struct ((⟨"k", key⟩, .leaf .utf8) ::
    (⟨"v", true⟩, .leaf (.float .double)) :: rest)))]

/-- The columns that are written for a schema, and those that are read. -/
def writtenAndRead (schema : List (FieldInfo × DataType)) :
    Except ParquetError (List (List Column) × List (List Column)) := do
  let nodes ← buildNodes schema
  let elements ← nodesToSchemaElements nodes
  let nodes' ← schemaElementsToNodes elements
  return (nodes.map columns, nodes'.map columns)

/-- A map with required entries and keys has its columns again. -/
theorem required_keys_are_read_again : ∃ nodes elements nodes',
    buildNodes (mapSchema false false []) = .ok nodes ∧
      nodesToSchemaElements nodes = .ok elements ∧ schemaElementsToNodes elements = .ok nodes' ∧
        nodes'.map columns = nodes.map fun node => (columns node).map Column.stored := by
  obtain ⟨nodes, hnodes, elements, helements, hrecorded⟩ :
      ∃ nodes, buildNodes (mapSchema false false []) = .ok nodes ∧
        ∃ elements, nodesToSchemaElements nodes = .ok elements ∧
          ∀ node ∈ nodes, isRecorded node = true :=
    ⟨_, rfl, _, rfl, forall_mem_singleton.mpr rfl⟩
  obtain ⟨nodes', hread, hleaves⟩ :=
    (schemaElementsToNodes_nodesToSchemaElements_iff hnodes helements).mpr hrecorded
  exact ⟨nodes, elements, nodes', hnodes, helements, hread, hleaves⟩

/-- The column of the keys of `mapSchema`. -/
def keyColumn (defLevel : ℕ) : Column :=
  ⟨["m", "key_value", "key"], .utf8, .byteArray, none, defLevel, 1⟩

/-- The column of its values. -/
def valueColumn (defLevel : ℕ) : Column :=
  ⟨["m", "key_value", "value"], .float .double, .double, none, defLevel, 1⟩

/-- Nullable keys and entries, a third column of entries, and a struct without children are not read
back. -/
theorem entries_are_not_read_again :
    writtenAndRead (mapSchema false true []) =
      .ok ([[keyColumn 3, valueColumn 3]], [[keyColumn 2, valueColumn 3]]) ∧
    writtenAndRead (mapSchema true false []) =
      .ok ([[keyColumn 3, valueColumn 4]], [[keyColumn 2, valueColumn 3]]) ∧
    writtenAndRead (mapSchema false false [(⟨"w", false⟩, .leaf .bool)]) =
      .ok ([[keyColumn 2, valueColumn 3, ⟨["m", "key_value", "w"], .bool, .boolean, none, 2, 1⟩]],
        [[keyColumn 2, valueColumn 3]]) ∧
    writtenAndRead [(⟨"unit", false⟩, .struct [])] = .error (.unsupported none) :=
  ⟨rfl, rfl, rfl, rfl⟩

end Fino.Parquet
