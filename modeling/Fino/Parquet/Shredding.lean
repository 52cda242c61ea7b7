import Fino.Parquet.Levels

/-!
# Shredding and assembling

`buildNested` makes a vector of the values that were read and decodes the leaves, which undoes
`shredValue` unless there is a text. A column is found again, and all streams are read to the end,
if and only if no row has a text or leads to a node without a first leaf
(`assembleTree_shredColumn_iff`).
-/

namespace Fino.Parquet

open Lib List ArrowVector
open Protobuf (Value)

mutual

/-- The entries of each map have a required `key` and a `value`. -/
def Node.KeyedMaps : Node → Prop
  | .leaf _ _ _ _ => True
  | .struct _ children => AllKeyedMaps children
  | .list _ child => child.KeyedMaps
  | .map _ child =>
    (∃ info key value, child = .struct info [key, value] ∧ key.name = "key" ∧
      value.name = "value" ∧ key.info.nullable = false) ∧ child.KeyedMaps

def AllKeyedMaps : List Node → Prop
  | [] => True
  | child :: children => child.KeyedMaps ∧ AllKeyedMaps children

end

variable {children : List Node}

lemma allKeyedMaps_iff : AllKeyedMaps children ↔ ∀ child ∈ children, child.KeyedMaps := by
  induction children with
  | nil => simp [AllKeyedMaps]
  | cons child children ih => rw [AllKeyedMaps, ih, forall_mem_cons]

mutual

def textFree : Node → Value → Bool
  | .leaf _ type _ _, v => type ≠ .utf8 || isNullish v
  | .struct _ children, v => isNullish v || textFreeFields children v
  | .list _ child, v => (itemsOf v).all (textFree child)
  | .map _ child, v => (itemsOf v).all fun pair => textFree child (entryOf pair)

/-- There is no text in the properties of an object. -/
def textFreeFields : List Node → Value → Bool
  | [], _ => true
  | child :: children, v => textFree child (v.get child.name) && textFreeFields children v

end

/-- The vector has the rows, one by one. -/
def Restores (vector : ArrowVector) (rows : List Value) : Prop :=
  vector.length = rows.length ∧ ∀ (i : ℕ) (h : i < rows.length), vector.get i = rows[i]

variable {rows : List Value} {vector : ArrowVector}

lemma Restores.toArray_eq (h : Restores vector rows) : vector.toArray = rows := by
  obtain ⟨hlength, hget⟩ := h
  refine ext_getElem ?_ fun i hi hi' => ?_
  · rw [ArrowVector.toArray, length_map, length_range, hlength]
  · rw [← hget i hi']
    simp only [ArrowVector.toArray, getElem_map, getElem_range]

/-- A vector is built of the rows, if all goes well. -/
def Rebuilds (ok : Bool) (result : Except ParquetError ArrowVector) (rows : List Value) : Prop :=
  (ok = true → ∃ vector, result = .ok vector ∧ Restores vector rows) ∧
    (ok = false → result = .error .notBytes)

variable {values : List Value} {i : ℕ}

lemma map_places {f : ℕ → Value} (hi : i < values.length)
    (hf : ∀ (j : ℕ) (h : j < (values.flatMap itemsOf).length), f j = (values.flatMap itemsOf)[j]) :
    (places (offsetsOf values) i).map f = itemsOf values[i] := by
  have hsplit : values.flatMap itemsOf = (values.take i).flatMap itemsOf ++
      (itemsOf values[i] ++ (values.drop (i + 1)).flatMap itemsOf) := by
    nth_rewrite 1 [← take_append_drop i values, drop_eq_getElem_cons hi]
    rw [flatMap_append, flatMap_cons]
  have hstart : (offsetsOf values).getD i 0 = ((values.take i).flatMap itemsOf).length := by
    rw [offsetsOf, getD_eq_getElem _ _ (by simp; omega)]
    simp
  have hstop : (offsetsOf values).getD (i + 1) 0 =
      ((values.take i).flatMap itemsOf).length + (itemsOf values[i]).length := by
    rw [offsetsOf, getD_eq_getElem _ _ (by simp; omega), getElem_map,
      getElem_range, take_add_one, List.getElem?_eq_getElem hi, flatMap_append,
      length_append]
    simp
  have hrange : (offsetsOf values).getD (i + 1) 0 - (offsetsOf values).getD i 0 =
      (itemsOf values[i]).length := by omega
  refine ext_getElem ?_ fun j hj hj' => ?_
  · rw [places, length_map, length_map, length_range, hrange]
  have hlt : ((values.take i).flatMap itemsOf).length + j < (values.flatMap itemsOf).length := by
    rw [hsplit, length_append, length_append]
    omega
  simp only [places, getElem_map, getElem_range, hstart, hf _ hlt]
  simp only [hsplit]
  rw [getElem_append_right (Nat.le_add_right _ _)]
  simp only [Nat.add_sub_cancel_left]
  exact getElem_append_left hj'

lemma offsetsOf_map {g : Value → Value}
    (h : ∀ row ∈ rows, (itemsOf (g row)).length = (itemsOf row).length) :
    offsetsOf (rows.map g) = offsetsOf rows := by
  rw [offsetsOf, offsetsOf, length_map]
  refine map_congr_left fun i _ => ?_
  rw [← map_take, flatMap_map, length_flatMap, length_flatMap]
  exact congrArg List.sum (map_congr_left fun row hrow => h row (mem_of_mem_take hrow))

lemma getD_validityOf (hi : i < values.length) :
    (validityOf values).getD i true = !isNullish values[i] := by
  rw [validityOf, getD_eq_getElem _ _ (by rwa [length_map]), getElem_map]

/-! ## What is stored -/

lemma physical_null (node : Node) : physical node .null = .null := by
  cases node <;> (rw [physical]; rfl)

/-- The place of a row is that of its column, or one at which something above it is null. -/
def Node.Admits (node : Node) (v : Value) : Prop := v = .null ∨ node.Conforms v

variable {node : Node} {v : Value} {parentDef parentRep : ℕ}

lemma Node.Admits.isNullish_physical (hnode : node.Leveled parentDef parentRep)
    (h : node.Admits v) :
    isNullish (physical node v) = isNullish v := by
  rcases h with rfl | h
  · rw [physical_null]
  · cases hv : isNullish v with
    | true =>
      rw [(h.eq_null hv).2, physical_null]
      rfl
    | false => exact h.not_isNullish_physical hnode hv

lemma validityOf_physical (hnode : node.Leveled parentDef parentRep)
    (hrows : ∀ row ∈ rows, node.Admits row) :
    validityOf (rows.map (physical node)) = validityOf rows := by
  rw [validityOf, map_map]
  exact map_congr_left fun row hrow => congrArg not ((hrows row hrow).isNullish_physical hnode)

lemma Node.Admits.orNull_physical (hnode : node.Leveled parentDef parentRep) (h : node.Admits v) :
    orNull (physical node v) = physical node v := by
  rw [orNull, h.isNullish_physical hnode]
  split_ifs with hv
  · rcases h with rfl | h
    · rw [physical_null]
    · rw [(h.eq_null hv).2, physical_null]
  · rfl

variable {child value key : Node} {info : NodeInfo}

lemma itemsOf_physical_list (v : Value) :
    itemsOf (physical (.list info child) v) = (itemsOf v).map (physical child) := by
  rw [physical]
  split_ifs with hv
  · rw [itemsOf_eq_nil hv]
    rfl
  · rfl

lemma itemsOf_physical_map (v : Value) :
    itemsOf (physical (.map info child) v) =
      (itemsOf v).map fun pair => asPair (physical child (entryOf pair)) := by
  rw [physical]
  split_ifs with hv
  · rw [itemsOf_eq_nil hv]
    rfl
  · rfl

lemma physicalFields_eq (children : List Node) (v : Value) :
    physicalFields children v =
      children.map fun child => (child.name, physical child (v.get child.name)) := by
  induction children with
  | nil => rfl
  | cons child children ih => rw [physicalFields, ih, map_cons]

lemma textFreeFields_eq (children : List Node) (v : Value) :
    textFreeFields children v = children.all fun child => textFree child (v.get child.name) := by
  induction children with
  | nil => rfl
  | cons child children ih => rw [textFreeFields, ih, all_cons]

lemma textFree_null (node : Node) : textFree node .null := by
  cases node with
  | leaf => rw [textFree]; exact Bool.or_true _
  | struct | list | map => rw [textFree]; rfl

lemma get_physical_struct (hnames : (children.map Node.name).Nodup) (hchild : child ∈ children)
    (hv : isNullish v = false) :
    (physical (.struct info children) v).get child.name = physical child (v.get child.name) := by
  rw [physical, hv, if_neg Bool.false_ne_true, physicalFields_eq]
  refine Protobuf.get_ofProperties ?_ (mem_reverse.mpr (mem_map.mpr ⟨child, hchild, rfl⟩))
  rw [map_reverse, nodup_reverse, map_map]
  exact hnames

lemma ofProperties_eq {l : List (String × Value)} {get : String → Value}
    (hmem : ∀ p ∈ l, p.2 = get p.1)
    (hrest : ∀ name, name ∉ l.map Prod.fst → get name = .undefined) :
    Value.ofProperties l = .object get := by
  refine congrArg Value.object (funext fun name => ?_)
  by_cases hname : name ∈ l.map Prod.fst
  · obtain ⟨value, hvalue, hget⟩ := Protobuf.exists_get_ofProperties hname
    exact hget.trans (hmem (name, value) hvalue)
  · rw [hrest name hname]
    exact Protobuf.get_ofProperties_eq_undefined hname

/-! ## Building vectors -/

def childRow (name : String) (row : Value) : Value := if isNullish row then .null else row.get name

lemma Node.Admits.childRow {row : Value} (h : (Node.struct info children).Admits row)
    (hchild : child ∈ children) :
    child.Admits (childRow child.name row) := by
  rw [Parquet.childRow]
  split_ifs with hv
  · exact .inl rfl
  · rcases h with rfl | h
    · exact absurd rfl hv
    · rcases h with ⟨-, rfl⟩ | ⟨-, hconform⟩
      · exact absurd rfl hv
      · exact .inr (allConform_iff.mp hconform child hchild)

lemma column_eq (hnode : (Node.struct info children).Leveled parentDef parentRep)
    (hrows : ∀ row ∈ rows, (Node.struct info children).Admits row) (hchild : child ∈ children) :
    ((rows.map (physical (.struct info children))).map fun v =>
        if isNullish v then .null else orNull (v.get child.name)) =
      (rows.map (childRow child.name)).map (physical child) := by
  rw [map_map, map_map]
  refine map_congr_left fun row hrow => ?_
  simp only [Function.comp_apply, (hrows row hrow).isNullish_physical hnode, childRow]
  cases hv : isNullish row with
  | true => exact (physical_null child).symm
  | false =>
    have hadmits := (hrows row hrow).childRow hchild
    rcases hrows row hrow with rfl | ⟨-, rfl⟩ | ⟨⟨hnames, -⟩, -⟩
    · cases hv
    · cases hv
    · rw [childRow, hv] at hadmits
      rw [get_physical_struct hnames hchild hv]
      exact hadmits.orNull_physical (allLeveled_iff.mp hnode.2.2 child hchild)

lemma all_textFree_struct :
    rows.all (textFree (.struct info children)) = children.all fun child =>
      (rows.map (childRow child.name)).all (textFree child) := by
  have hrow (row : Value) : textFree (.struct info children) row =
      children.all fun child => textFree child (childRow child.name row) := by
    rw [textFree, textFreeFields_eq]
    cases hv : isNullish row with
    | true => simp [childRow, hv, textFree_null]
    | false => simp [childRow, hv]
  rw [Bool.eq_iff_iff]
  simp only [all_eq_true, hrow, mem_map, forall_exists_index, and_imp, forall_apply_eq_imp_iff₂]
  exact ⟨fun h child hchild row hrow => h row hrow child hchild,
    fun h row hrow child hchild => h child hchild row hrow⟩

lemma buildFields_eq {rows : Node → List Value} {ok : Node → Bool}
    (h : ∀ child ∈ children, Rebuilds (ok child) (buildNested child (values.map fun v =>
      if isNullish v then .null else orNull (v.get child.name))) (rows child)) :
    (children.all ok → ∃ vectors, buildFields children values = .ok vectors ∧
      List.Forall₂ (fun child p => p.1 = child.name ∧ Restores p.2 (rows child)) children vectors) ∧
    (children.all ok = false → buildFields children values = .error .notBytes) := by
  induction children with
  | nil => exact ⟨fun _ => ⟨[], rfl, .nil⟩, fun h => absurd h.symm Bool.false_ne_true⟩
  | cons child children ih =>
    obtain ⟨⟨hok, herror⟩, hchildren⟩ := forall_mem_cons.mp h
    obtain ⟨ihok, iherror⟩ := ih hchildren
    rw [all_cons, buildFields]
    cases hchild : ok child with
    | false =>
      refine ⟨fun h => absurd h Bool.false_ne_true, fun _ => ?_⟩
      rw [herror hchild]
      rfl
    | true =>
      obtain ⟨vector, hvector, hrestores⟩ := hok hchild
      rw [hvector, Bool.true_and]
      refine ⟨fun hall => ?_, fun hall => ?_⟩
      · obtain ⟨vectors, hvectors, hforall⟩ := ihok hall
        refine ⟨(child.name, vector) :: vectors, ?_, .cons ⟨rfl, hrestores⟩ hforall⟩
        rw [hvectors]
        rfl
      · rw [iherror hall]
        rfl

lemma getChildren_eq {vectors : List (String × ArrowVector)} {rows : Node → List Value}
    {f : Node → Value}
    (h : List.Forall₂ (fun child p => p.1 = child.name ∧ Restores p.2 (rows child))
      children vectors)
    (hf : ∀ child ∈ children, ∃ hi : i < (rows child).length, (rows child)[i] = f child) :
    getChildren vectors i = children.map fun child => (child.name, f child) := by
  induction h with
  | nil => rfl
  | @cons child p children vectors hp _ ih =>
    obtain ⟨⟨hi, hchild⟩, hchildren⟩ := forall_mem_cons.mp hf
    obtain ⟨hname, -, hget⟩ := hp
    rw [show p = (p.1, p.2) from rfl, getChildren, ih hchildren, hget i hi, hchild, hname, map_cons]

lemma keys_of_buildNested (h : buildNested (.struct info children) values = .ok vector) :
    vector.keys = children.map Node.name := by
  obtain ⟨vectors, hvectors, hvector⟩ := Outcome.bind_eq_ok.mp h
  cases hvector
  rw [ArrowVector.keys]
  clear h
  induction children generalizing vectors with
  | nil => cases hvectors; rfl
  | cons child children ih =>
    obtain ⟨vector, -, hrest⟩ := Outcome.bind_eq_ok.mp hvectors
    obtain ⟨vectors, hvectors', h⟩ := Outcome.bind_eq_ok.mp hrest
    cases h
    rw [map_cons, map_cons, ih vectors hvectors']

lemma rebuilds_struct (hnode : (Node.struct info children).Leveled parentDef parentRep)
    (hrows : ∀ row ∈ rows, (Node.struct info children).Admits row)
    (h : ∀ child ∈ children, Rebuilds ((rows.map (childRow child.name)).all (textFree child))
        (buildNested child ((rows.map (childRow child.name)).map (physical child)))
        (rows.map (childRow child.name))) :
    Rebuilds (rows.all (textFree (.struct info children)))
      (buildNested (.struct info children) (rows.map (physical (.struct info children)))) rows := by
  obtain ⟨hok, herror⟩ := buildFields_eq fun child hchild => by
    rw [column_eq hnode hrows hchild]
    exact h child hchild
  rw [all_textFree_struct, buildNested, validityOf_physical hnode hrows]
  refine ⟨fun hall => ?_, fun hall => by rw [herror hall]; rfl⟩
  obtain ⟨vectors, hvectors, hforall⟩ := hok hall
  refine ⟨.struct (validityOf rows) vectors, by rw [hvectors]; rfl, length_map _, fun i hi => ?_⟩
  have hadmits := hrows rows[i] (getElem_mem hi)
  rw [ArrowVector.get, getD_validityOf hi]
  rcases hadmits with hnull | ⟨-, hnull⟩ | ⟨⟨-, get, hget, hrest⟩, -⟩
  · rw [hnull]
    rfl
  · rw [hnull]
    rfl
  · have hchildren := getChildren_eq (f := fun child => get child.name) hforall
      fun child _ => ⟨by rwa [length_map], by rw [getElem_map, hget]; rfl⟩
    rw [hchildren, hget]
    refine ofProperties_eq (fun p hp => ?_) fun name hname => hrest name ?_
    · obtain ⟨child, -, rfl⟩ := mem_map.mp (mem_reverse.mp hp)
      rfl
    · rw [map_reverse, mem_reverse, map_map] at hname
      exact hname

/-- A row of lists is null or has the items of a list. -/
lemma array_itemsOf {P : List Value → Prop} {null : Prop} {row : Value}
    (h : row = .null ∨ (null ∧ row = .null) ∨ ∃ l, row = .array l ∧ P l) :
    (if !isNullish row then .array (itemsOf row) else .null) = row := by
  rcases h with rfl | ⟨-, rfl⟩ | ⟨l, rfl, -⟩ <;> rfl

lemma rebuilds_list (hnode : (Node.list info child).Leveled parentDef parentRep)
    (hrows : ∀ row ∈ rows, (Node.list info child).Admits row)
    (h : Rebuilds ((rows.flatMap itemsOf).all (textFree child))
      (buildNested child ((rows.flatMap itemsOf).map (physical child))) (rows.flatMap itemsOf)) :
    Rebuilds (rows.all (textFree (.list info child)))
      (buildNested (.list info child) (rows.map (physical (.list info child)))) rows := by
  have hflat : (rows.map (physical (.list info child))).flatMap itemsOf =
      (rows.flatMap itemsOf).map (physical child) := by
    rw [flatMap_map, map_flatMap]
    exact flatMap_congr fun row _ => itemsOf_physical_list row
  have htext : rows.all (textFree (.list info child)) =
      (rows.flatMap itemsOf).all (textFree child) := by
    rw [all_flatMap]
    rfl
  have hoffsets : offsetsOf (rows.map (physical (.list info child))) = offsetsOf rows :=
    offsetsOf_map fun row _ => by rw [itemsOf_physical_list, length_map]
  obtain ⟨hok, herror⟩ := h
  rw [buildNested, hflat, hoffsets, htext, validityOf_physical hnode hrows]
  refine ⟨fun hall => ?_, fun hall => by rw [herror hall]; rfl⟩
  obtain ⟨vector, hvector, -, hget⟩ := hok hall
  refine ⟨.list (validityOf rows) (offsetsOf rows) vector, by rw [hvector]; rfl, length_map _,
    fun i hi => ?_⟩
  rw [ArrowVector.get, getD_validityOf hi, map_places hi hget]
  exact array_itemsOf (hrows rows[i] (getElem_mem hi))

lemma forall_mem_items {P : Value → Prop} {null : Prop} (h : ∀ row ∈ rows, row = .null ∨
      (null ∧ row = .null) ∨ ∃ l, row = .array l ∧ ∀ item ∈ l, P item) :
    ∀ item ∈ rows.flatMap itemsOf, P item := by
  intro item hitem
  obtain ⟨row, hrow, hitem⟩ := mem_flatMap.mp hitem
  rcases h row hrow with rfl | h
  · cases hitem
  · exact forall_mem_itemsOf h item hitem

lemma entry_eq (k x : Value) : entry k x = .ofProperties [("value", x), ("key", k)] := by
  refine ofProperties_eq (forall_mem_cons.mpr ⟨rfl, forall_mem_singleton.mpr rfl⟩) ?_
  intro name hname
  refine Protobuf.get_ofProperties_eq_undefined fun hmem => hname ?_
  exact (List.Perm.swap _ _ _).mem_iff.mp hmem

lemma entryOf_asPair_physical (hkey : key.name = "key") (hvalue : value.name = "value")
    (hv : isNullish v = false) :
    entryOf (asPair (physical (.struct info [key, value]) v)) =
      physical (.struct info [key, value]) v := by
  rw [physical, hv, if_neg Bool.false_ne_true, physicalFields_eq, map_cons, map_cons,
    map_nil, hkey, hvalue]
  exact entry_eq _ _

lemma rebuilds_map {info' : NodeInfo}
    (hnode : (Node.map info (.struct info' [key, value])).Leveled parentDef parentRep)
    (hkey : key.name = "key") (hvalue : value.name = "value")
    (hrows : ∀ row ∈ rows, (Node.map info (.struct info' [key, value])).Admits row)
    (h : Rebuilds (((rows.flatMap itemsOf).map entryOf).all (textFree (.struct info' [key, value])))
      (buildNested (.struct info' [key, value]) (((rows.flatMap itemsOf).map entryOf).map
        (physical (.struct info' [key, value])))) ((rows.flatMap itemsOf).map entryOf)) :
    Rebuilds (rows.all (textFree (.map info (.struct info' [key, value]))))
      (buildNested (.map info (.struct info' [key, value]))
        (rows.map (physical (.map info (.struct info' [key, value]))))) rows := by
  generalize hchild : Node.struct info' [key, value] = child at hnode hrows h ⊢
  have hentry (pair : Value) :
      entryOf (asPair (physical child (entryOf pair))) = physical child (entryOf pair) := by
    subst hchild
    exact entryOf_asPair_physical hkey hvalue rfl
  have hflat : ((rows.map (physical (.map info child))).flatMap itemsOf).map entryOf =
      ((rows.flatMap itemsOf).map entryOf).map (physical child) := by
    rw [flatMap_map, map_flatMap, map_flatMap, map_flatMap]
    refine flatMap_congr fun row _ => ?_
    rw [itemsOf_physical_map, map_map, map_map]
    exact map_congr_left fun pair _ => hentry pair
  have htext : rows.all (textFree (.map info child)) =
      ((rows.flatMap itemsOf).map entryOf).all (textFree child) := by
    rw [all_map, all_flatMap]
    rfl
  have hoffsets : offsetsOf (rows.map (physical (.map info child))) = offsetsOf rows :=
    offsetsOf_map fun row _ => by rw [itemsOf_physical_map, length_map]
  obtain ⟨hok, herror⟩ := h
  rw [buildNested, hflat, hoffsets, htext, validityOf_physical hnode hrows]
  refine ⟨fun hall => ?_, fun hall => by rw [herror hall]; rfl⟩
  obtain ⟨vector, hvector, -, hget⟩ := hok hall
  have hkeys : vector.keys = ["key", "value"] := by
    subst hchild
    rw [keys_of_buildNested hvector, map_cons, map_cons, map_nil, hkey, hvalue]
  refine ⟨.map (validityOf rows) (offsetsOf rows) vector, by rw [hvector]; rfl, length_map _,
    fun i hi => ?_⟩
  rw [ArrowVector.get, getD_validityOf hi, hkeys, map_places hi fun j hj => ?_]
  · exact array_itemsOf (hrows rows[i] (getElem_mem hi))
  · rw [hget j (by rwa [length_map]), getElem_map]
    obtain ⟨⟨k, x, hpair⟩, -⟩ := forall_mem_items hrows _ (getElem_mem hj)
    rw [hpair]
    rfl

lemma rebuilds_leaf {type : LeafType} {converters : ParquetTypeInfo} {path : List String}
    (htype : arrowTypeToParquet type = .ok converters)
    (hrows : ∀ row ∈ rows, (Node.leaf info type converters path).Admits row) :
    Rebuilds (rows.all (textFree (.leaf info type converters path)))
      (buildNested (.leaf info type converters path)
        (rows.map (physical (.leaf info type converters path)))) rows := by
  have hmapM : (rows.map (physical (.leaf info type converters path))).mapM (fun v =>
        if isNullish v then .ok .null else converters.decode v) =
      if rows.all (textFree (.leaf info type converters path)) then .ok rows
      else .error .notBytes := by
    rw [mapM_map]
    refine (Outcome.mapM_ite fun row hrow => ?_).trans (by rw [map_id])
    rw [Function.comp_apply, physical, textFree]
    rcases hrows row hrow with rfl | ⟨-, rfl⟩ | hrow
    · exact (if_pos (Bool.or_true _)).symm
    · exact (if_pos (Bool.or_true _)).symm
    · obtain ⟨hstored, hdecode⟩ := decode_encode htype hrow
      rw [hrow.not_isNullish, if_neg Bool.false_ne_true, hstored, if_neg Bool.false_ne_true,
        Bool.or_false]
      by_cases htext : type = .utf8
      · subst htext
        rw [decode_encode_utf8 htype hrow]
        rfl
      · rw [hdecode htext, if_pos (decide_eq_true htext)]
        rfl
  rw [buildNested, hmapM]
  refine ⟨fun hall => ⟨.leaf rows, by rw [hall]; rfl, rfl, fun i hi => ?_⟩,
    fun hall => by rw [hall]; rfl⟩
  rw [ArrowVector.get, getD_eq_getElem _ _ hi]

/-- A vector is built of what is stored of its rows, unless there is a text among them. -/
lemma rebuilds_physical (hnode : node.Leveled parentDef parentRep) (hmaps : node.KeyedMaps)
    (hrows : ∀ row ∈ rows, node.Admits row) :
    Rebuilds (rows.all (textFree node)) (buildNested node (rows.map (physical node))) rows := by
  induction node using Node.induction generalizing rows parentDef parentRep with
  | leaf info type converters path => exact rebuilds_leaf hnode.2.2 hrows
  | struct info children ih =>
    refine rebuilds_struct hnode hrows fun child hchild => ?_
    refine ih child hchild (allLeveled_iff.mp hnode.2.2 child hchild)
      (allKeyedMaps_iff.mp hmaps child hchild) (forall_mem_map.mpr fun row hrow => ?_)
    exact (hrows row hrow).childRow hchild
  | list info child ih =>
    refine rebuilds_list hnode hrows (ih hnode.2.2 hmaps fun item hitem => ?_)
    exact .inr (forall_mem_items hrows item hitem)
  | map info child ih =>
    obtain ⟨⟨info', key, value, rfl, hkey, hvalue, -⟩, hmaps⟩ := hmaps
    refine rebuilds_map hnode hkey hvalue hrows (ih hnode.2.2 hmaps
      (forall_mem_map.mpr fun pair hpair => ?_))
    exact .inr (forall_mem_items hrows pair hpair).2

/-! ## Columns -/

/-- The rows of a column are found again, and all streams are read to the end, if and only if no
row leads to a node without a first leaf and no row has a text. -/
theorem assembleTree_shredColumn_iff {field : FieldInfo} {type : DataType} {node : Node}
    {rows : List Value} (hnode : buildNode field type 0 0 [] = .ok node) (hmaps : node.KeyedMaps)
    (hrows : ∀ row ∈ rows, node.Conforms row) :
    (∃ vector cursors,
      assembleTree node (shredColumn node rows) rows.length = .ok (vector, cursors) ∧
        vector.toArray = rows ∧ ∀ cur ∈ cursors, cur = {}) ↔
      ∀ row ∈ rows, reaches node row = true ∧ textFree node row = true := by
  have hleveled := leveled_of_buildNode hnode
  obtain ⟨hok, herror⟩ := rebuilds_physical hleveled hmaps fun row hrow => .inr (hrows row hrow)
  rw [assembleTree, assembleRows_shredColumn hleveled hrows, outcome_bind]
  dsimp only
  constructor
  · rintro ⟨vector, cursors, h, -, -⟩
    cases hreaches : rows.all (reaches node) with
    | false =>
      rw [hreaches] at h
      cases h
    | true =>
      cases htext : rows.all (textFree node) with
      | false =>
        rw [hreaches, herror htext] at h
        cases h
      | true =>
        rw [all_eq_true] at hreaches htext
        exact fun row hrow => ⟨hreaches row hrow, htext row hrow⟩
  · intro h
    have hreaches : rows.all (reaches node) = true := all_eq_true.mpr fun row hrow =>
      (h row hrow).1
    have htext : rows.all (textFree node) = true := all_eq_true.mpr fun row hrow =>
      (h row hrow).2
    obtain ⟨vector, hvector, hrestores⟩ := hok htext
    refine ⟨vector, List.replicate node.leafCount {}, ?_, hrestores.toArray_eq,
      fun cur hcur => eq_of_mem_replicate hcur⟩
    rw [hreaches, hvector]
    rfl

def numberLists : Node :=
  .list ⟨"marks", true, 1, 1⟩ (.leaf ⟨"item", true, 3, 1⟩ (.int 32 true)
    { physicalType := .int32
      convertedType := some .int32
      logicalType := some (.integer 32 true) } ["marks", "list", "item"])

def numberRows : List Value :=
  [.array [.number (.ofInt 7), .null], .array [.null], .array [], .null]

/-- A list of nulls, an empty list and a null are told apart. -/
theorem number_lists_are_restored : ∃ vector cursors,
    assembleTree numberLists (shredColumn numberLists numberRows) 4 = .ok (vector, cursors) ∧
      vector.toArray = numberRows ∧ ∀ cur ∈ cursors, cur = {} := by
  have hnode : buildNode ⟨"marks", true⟩ (.list ⟨"item", true⟩ (.leaf (.int 32 true))) 0 0 [] =
      .ok numberLists := rfl
  refine (assembleTree_shredColumn_iff hnode trivial ?_).mpr ?_
  · simp [numberRows, numberLists, Node.Conforms, LeafType.Holds]
  · simp [numberRows, numberLists, reaches, textFree, Node.hasFirstLeaf, itemsOf]

def texts : Node :=
  .leaf ⟨"tag", true, 1, 0⟩ .utf8
    { physicalType := .byteArray
      convertedType := some .utf8
      logicalType := some .string
      decode := decodeText } ["tag"]

def emptyStructs : Node := .struct ⟨"unit", false, 0, 0⟩ []

/-- A text is rejected when it is decoded, and a struct without children has no first leaf. -/
theorem text_and_empty_struct_are_lost :
    (buildNode ⟨"tag", true⟩ (.leaf .utf8) 0 0 [] = .ok texts ∧ texts.KeyedMaps ∧
      texts.Conforms (.string "a") ∧
      assembleTree texts (shredColumn texts [.string "a"]) 1 = .error .notBytes) ∧
    (buildNode ⟨"unit", false⟩ (.struct []) 0 0 [] = .ok emptyStructs ∧ emptyStructs.KeyedMaps ∧
      emptyStructs.Conforms (.ofProperties []) ∧
      assembleTree emptyStructs (shredColumn emptyStructs [.ofProperties []]) 1 =
        .error .notObject) := by
  have hrecord : IsRecord [] (.ofProperties []) := ⟨nodup_nil, _, rfl, fun _ _ => rfl⟩
  exact ⟨⟨rfl, trivial, .inr ⟨"a", rfl⟩, rfl⟩, rfl, trivial, .inr ⟨hrecord, trivial⟩, rfl⟩

end Fino.Parquet
