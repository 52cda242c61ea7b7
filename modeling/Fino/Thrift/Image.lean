import Fino.Lib.Wire
import Fino.Thrift.Value

/-!
# The nodes of a value, and what is read of it

What a text becomes in a protocol is a function of the text, and what the types of an empty map
become a function of these, if it is read at all. `image` is what is then read of a value. Values
are typed when all their nodes are (`IsTyped`).
-/

namespace Fino.Thrift

open Lib.Wire List

/-! ## Values -/

namespace ThriftValue

lemma induction {P : ThriftValue → Prop} (bool : ∀ value, P (.bool value))
    (byte : ∀ value, P (.byte value)) (i16 : ∀ value, P (.i16 value))
    (i32 : ∀ value, P (.i32 value)) (i64 : ∀ value, P (.i64 value))
    (double : ∀ value, P (.double value)) (string : ∀ value, P (.string value))
    (struct : ∀ fields, (∀ field ∈ fields, P field.2) → P (.struct fields))
    (list : ∀ elemType values, (∀ value ∈ values, P value) → P (.list elemType values))
    (set : ∀ elemType values, (∀ value ∈ values, P value) → P (.set elemType values))
    (map : ∀ keyType valueType entries, (∀ entry ∈ entries, P entry.1 ∧ P entry.2) →
      P (.map keyType valueType entries)) (value : ThriftValue) : P value :=
  @ThriftValue.rec P (fun fields => ∀ field ∈ fields, P field.2)
    (fun values => ∀ value ∈ values, P value)
    (fun entries => ∀ entry ∈ entries, P entry.1 ∧ P entry.2)
    (fun field => P field.2) (fun entry => P entry.1 ∧ P entry.2)
    bool byte i16 i32 i64 double string struct list set map
    (fun _ h => absurd h not_mem_nil) (fun _ _ h h' => forall_mem_cons.mpr ⟨h, h'⟩)
    (fun _ h => absurd h not_mem_nil) (fun _ _ h h' => forall_mem_cons.mpr ⟨h, h'⟩)
    (fun _ h => absurd h not_mem_nil) (fun _ _ h h' => forall_mem_cons.mpr ⟨h, h'⟩)
    (fun _ _ h => h) (fun _ _ h h' => ⟨h, h'⟩) value

mutual

def nodes : ThriftValue → List ThriftValue
  | .struct fields => .struct fields :: nodesOfFields fields
  | .list elemType values => .list elemType values :: nodesOfValues values
  | .set elemType values => .set elemType values :: nodesOfValues values
  | .map keyType valueType entries => .map keyType valueType entries :: nodesOfEntries entries
  | value => [value]

def nodesOfFields : List (ℤ × ThriftValue) → List ThriftValue
  | [] => []
  | (_, value) :: fields => value.nodes ++ nodesOfFields fields

def nodesOfValues : List ThriftValue → List ThriftValue
  | [] => []
  | value :: values => value.nodes ++ nodesOfValues values

def nodesOfEntries : List (ThriftValue × ThriftValue) → List ThriftValue
  | [] => []
  | (key, value) :: entries => key.nodes ++ value.nodes ++ nodesOfEntries entries

end

variable (fields : List (ℤ × ThriftValue))

lemma nodesOfFields_eq : nodesOfFields fields = fields.flatMap fun field => field.2.nodes := by
  induction fields with
  | nil => rfl
  | cons field fields ih => rw [nodesOfFields, ih, flatMap_cons]

lemma nodesOfValues_eq (values : List ThriftValue) :
    nodesOfValues values = values.flatMap nodes := by
  induction values with
  | nil => rfl
  | cons value values ih => rw [nodesOfValues, ih, flatMap_cons]

lemma nodesOfEntries_eq (entries : List (ThriftValue × ThriftValue)) :
    nodesOfEntries entries = entries.flatMap fun entry => entry.1.nodes ++ entry.2.nodes := by
  induction entries with
  | nil => rfl
  | cons entry entries ih => rw [nodesOfEntries, ih, flatMap_cons]

lemma nodes_struct :
    (struct fields).nodes = struct fields :: fields.flatMap fun field => field.2.nodes := by
  rw [nodes, nodesOfFields_eq]

lemma nodes_list (elemType : TType) (values : List ThriftValue) :
    (list elemType values).nodes = list elemType values :: values.flatMap nodes := by
  rw [nodes, nodesOfValues_eq]

lemma nodes_set (elemType : TType) (values : List ThriftValue) :
    (set elemType values).nodes = set elemType values :: values.flatMap nodes := by
  rw [nodes, nodesOfValues_eq]

lemma nodes_map (keyType valueType : TType) (entries : List (ThriftValue × ThriftValue)) :
    (map keyType valueType entries).nodes = map keyType valueType entries ::
      entries.flatMap fun entry => entry.1.nodes ++ entry.2.nodes := by
  rw [nodes, nodesOfEntries_eq]

lemma nodes_ne_nil (value : ThriftValue) : value.nodes ≠ [] := by
  cases value <;> simp [nodes]

lemma mem_nodes (value : ThriftValue) : value ∈ value.nodes := by
  cases value <;> simp [nodes]

lemma length_nodes_le {α : Type} {f : α → List ThriftValue} {items : List α} {item : α}
    (h : item ∈ items) : (f item).length ≤ (items.flatMap f).length := by
  exact (sublist_flatten_of_mem (mem_map_of_mem h)).length_le

mutual

/-- A value with other texts, and with other types of its empty maps. -/
def rewrite (text : String → String) (types : TType → TType → TType × TType) :
    ThriftValue → ThriftValue
  | .string value => .string (text value)
  | .struct fields => .struct (rewriteFields text types fields)
  | .list elemType values => .list elemType (rewriteValues text types values)
  | .set elemType values => .set elemType (rewriteValues text types values)
  | .map keyType valueType entries =>
    if entries.isEmpty then .map (types keyType valueType).1 (types keyType valueType).2 []
    else .map keyType valueType (rewriteEntries text types entries)
  | value => value

/-- The fields of a struct with other texts and types. -/
def rewriteFields (text : String → String) (types : TType → TType → TType × TType) :
    List (ℤ × ThriftValue) → List (ℤ × ThriftValue)
  | [] => []
  | (id, value) :: fields => (id, value.rewrite text types) :: rewriteFields text types fields

/-- The values of a list or a set with other texts and types. -/
def rewriteValues (text : String → String) (types : TType → TType → TType × TType) :
    List ThriftValue → List ThriftValue
  | [] => []
  | value :: values => value.rewrite text types :: rewriteValues text types values

/-- The entries of a map with other texts and types. -/
def rewriteEntries (text : String → String) (types : TType → TType → TType × TType) :
    List (ThriftValue × ThriftValue) → List (ThriftValue × ThriftValue)
  | [] => []
  | (key, value) :: entries =>
    (key.rewrite text types, value.rewrite text types) :: rewriteEntries text types entries

end

variable {entries : List (ThriftValue × ThriftValue)}

section Rewrite

variable (text : String → String) (types : TType → TType → TType × TType)

def rewriteField (field : ℤ × ThriftValue) : ℤ × ThriftValue :=
  (field.1, field.2.rewrite text types)

def rewriteEntry (entry : ThriftValue × ThriftValue) : ThriftValue × ThriftValue :=
  (entry.1.rewrite text types, entry.2.rewrite text types)

variable (fields : List (ℤ × ThriftValue))

lemma rewriteFields_eq :
    rewriteFields text types fields = fields.map (rewriteField text types) := by
  induction fields with
  | nil => rfl
  | cons field fields ih => rw [rewriteFields, ih, map_cons, rewriteField]

lemma rewriteValues_eq (values : List ThriftValue) :
    rewriteValues text types values = values.map (rewrite text types) := by
  induction values with
  | nil => rfl
  | cons value values ih => rw [rewriteValues, ih, map_cons]

lemma rewriteEntries_eq (entries : List (ThriftValue × ThriftValue)) :
    rewriteEntries text types entries = entries.map (rewriteEntry text types) := by
  induction entries with
  | nil => rfl
  | cons entry entries ih => rw [rewriteEntries, ih, map_cons, rewriteEntry]

lemma rewrite_struct :
    (struct fields).rewrite text types = struct (fields.map (rewriteField text types)) := by
  rw [rewrite, rewriteFields_eq]

lemma rewrite_list (elemType : TType) (values : List ThriftValue) :
    (list elemType values).rewrite text types =
      list elemType (values.map (rewrite text types)) := by
  rw [rewrite, rewriteValues_eq]

lemma rewrite_set (elemType : TType) (values : List ThriftValue) :
    (set elemType values).rewrite text types = set elemType (values.map (rewrite text types)) := by
  rw [rewrite, rewriteValues_eq]

variable (keyType valueType : TType)

lemma rewrite_map_nil :
    (map keyType valueType []).rewrite text types =
      map (types keyType valueType).1 (types keyType valueType).2 [] := by
  rfl

lemma rewrite_map (h : entries ≠ []) :
    (map keyType valueType entries).rewrite text types =
      map keyType valueType (entries.map (rewriteEntry text types)) := by
  rw [rewrite, rewriteEntries_eq, if_neg (by simpa using h)]

lemma type_rewrite (value : ThriftValue) : (value.rewrite text types).type = value.type := by
  cases value with
  | map keyType valueType entries =>
    rw [rewrite]
    split_ifs <;> rfl
  | _ => rfl

lemma nodes_rewrite (value : ThriftValue) :
    (value.rewrite text types).nodes = value.nodes.map (rewrite text types) := by
  induction value using ThriftValue.induction with
  | struct fields ih =>
    rw [rewrite_struct, nodes_struct, nodes_struct, map_cons, rewrite_struct,
      flatMap_map, map_flatMap]
    exact congrArg _ (flatMap_congr fun field hfield => ih field hfield)
  | list elemType values ih | set elemType values ih =>
    simp only [rewrite_list, rewrite_set, nodes_list, nodes_set, map_cons, flatMap_map, map_flatMap]
    exact congrArg _ (flatMap_congr ih)
  | map keyType valueType entries ih =>
    by_cases h : entries = []
    · subst h
      rw [rewrite_map_nil, nodes_map, nodes_map, flatMap_nil, map_cons, map_nil, rewrite_map_nil]
    · rw [rewrite_map _ _ _ _ h, nodes_map, nodes_map, map_cons, rewrite_map _ _ _ _ h,
        flatMap_map, map_flatMap]
      refine congrArg _ (flatMap_congr fun entry hentry => ?_)
      rw [map_append, ← (ih entry hentry).1, ← (ih entry hentry).2]
      rfl
  | _ => rfl

lemma rewrite_rewrite (text' : String → String) (types' : TType → TType → TType × TType)
    (value : ThriftValue) :
    (value.rewrite text types).rewrite text' types' =
      value.rewrite (text' ∘ text) fun keyType valueType =>
        types' (types keyType valueType).1 (types keyType valueType).2 := by
  induction value using ThriftValue.induction with
  | struct fields ih =>
    simp only [rewrite_struct, map_map]
    exact congrArg struct (map_congr_left fun field hfield =>
      congrArg (Prod.mk field.1) (ih field hfield))
  | list elemType values ih =>
    simp only [rewrite_list, map_map]
    exact congrArg _ (map_congr_left ih)
  | set elemType values ih =>
    simp only [rewrite_set, map_map]
    exact congrArg _ (map_congr_left ih)
  | map keyType valueType entries ih =>
    by_cases h : entries = []
    · subst h
      rw [rewrite_map_nil, rewrite_map_nil, rewrite_map_nil]
    · rw [rewrite_map _ _ _ _ h, rewrite_map _ _ _ _ h,
        rewrite_map _ _ _ _ (by simpa using h), map_map]
      exact congrArg _ (map_congr_left fun entry hentry =>
        congrArg₂ Prod.mk (ih entry hentry).1 (ih entry hentry).2)
  | _ => rfl

end Rewrite

variable {value : ThriftValue}

lemma forall_string_mem_flatMap {α : Type} {P : String → Prop} {items : List α}
    {nodesOf : α → List ThriftValue} (hne : ∀ s, string s ≠ value) :
    (∀ s, string s ∈ value :: items.flatMap nodesOf → P s) ↔
      ∀ item ∈ items, ∀ s, string s ∈ nodesOf item → P s := by
  simp only [mem_cons, hne, false_or, mem_flatMap]
  exact ⟨fun h item hitem s hs => h s ⟨item, hitem, hs⟩,
    fun h s ⟨item, hitem, hs⟩ => h item hitem s hs⟩

variable {text : String → String} {types : TType → TType → TType × TType} {dropped : Bool}

lemma rewrite_eq_rewrite_iff {text' : String → String} :
    value.rewrite text types = value.rewrite text' types ↔
      ∀ s, string s ∈ value.nodes → text s = text' s := by
  induction value using ThriftValue.induction with
  | string s => simp [rewrite, nodes]
  | struct fields ih =>
    rw [rewrite_struct, rewrite_struct, struct.injEq, map_inj_left, nodes_struct,
      forall_string_mem_flatMap (by simp)]
    refine forall₂_congr fun field hfield => ?_
    rw [rewriteField, rewriteField, Prod.mk.injEq, ← ih field hfield]
    simp
  | list elemType values ih | set elemType values ih =>
    simp only [rewrite_list, rewrite_set, list.injEq, set.injEq, map_inj_left, nodes_list,
      nodes_set]
    rw [forall_string_mem_flatMap (by simp)]
    simpa using forall₂_congr ih
  | map keyType valueType entries ih =>
    by_cases h : entries = []
    · subst h
      simp [rewrite_map_nil, nodes_map]
    · rw [rewrite_map _ _ _ _ h, rewrite_map _ _ _ _ h, map.injEq, map_inj_left, nodes_map,
        forall_string_mem_flatMap (by simp)]
      simp only [true_and]
      refine forall₂_congr fun entry hentry => ?_
      rw [rewriteEntry, rewriteEntry, Prod.mk.injEq, (ih entry hentry).1, (ih entry hentry).2]
      simp only [mem_append, or_imp, forall_and]
  | _ => simp [rewrite, nodes]

/-! ## What is read -/

section Image

variable (text : String → String) (emptyMap : TType → TType → Option (TType × TType))

/-- The value is read, apart from the values in it. -/
def isAccepted : ThriftValue → Bool
  | .map keyType valueType [] => (emptyMap keyType valueType).isSome
  | _ => true

def typesRead (keyType valueType : TType) : TType × TType :=
  (emptyMap keyType valueType).getD (keyType, valueType)

/-- What is read of a value, for what is read of a text and of the types of an empty map. -/
def image (value : ThriftValue) : Option ThriftValue :=
  if value.nodes.all (isAccepted emptyMap) then some (value.rewrite text (typesRead emptyMap))
  else none

def imageOfField (field : ℤ × ThriftValue) : Option (ℤ × ThriftValue) :=
  (field.2.image text emptyMap).map fun value => (field.1, value)

def imageOfEntry (entry : ThriftValue × ThriftValue) : Option (ThriftValue × ThriftValue) :=
  (entry.1.image text emptyMap).bind fun key =>
    (entry.2.image text emptyMap).map fun value => (key, value)

lemma mapM_eq_ite {α β : Type} {f : α → Option β} {g : α → β} {nodesOf : α → List ThriftValue}
    (h : ∀ a, f a = if (nodesOf a).all (isAccepted emptyMap) then some (g a) else none)
    (l : List α) :
    l.mapM f = if (l.flatMap nodesOf).all (isAccepted emptyMap) then some (l.map g) else none := by
  induction l with
  | nil => rfl
  | cons a l ih =>
    rw [mapM_cons, ih, h a, flatMap_cons, all_append]
    cases (nodesOf a).all (isAccepted emptyMap) with
    | false => rfl
    | true => cases (l.flatMap nodesOf).all (isAccepted emptyMap) <;> rfl

variable (fields : List (ℤ × ThriftValue))

lemma mapM_imageOfField :
    fields.mapM (imageOfField text emptyMap) =
      if (fields.flatMap fun field => field.2.nodes).all (isAccepted emptyMap) then
        some (fields.map (rewriteField text (typesRead emptyMap))) else none := by
  refine mapM_eq_ite emptyMap (fun field => ?_) fields
  rw [imageOfField, image]
  split_ifs <;> rfl

lemma mapM_imageOfEntry (entries : List (ThriftValue × ThriftValue)) :
    entries.mapM (imageOfEntry text emptyMap) =
      if (entries.flatMap fun entry => entry.1.nodes ++ entry.2.nodes).all
          (isAccepted emptyMap) then
        some (entries.map (rewriteEntry text (typesRead emptyMap))) else none := by
  refine mapM_eq_ite emptyMap (fun entry => ?_) entries
  rw [imageOfEntry, image, image, all_append]
  cases entry.1.nodes.all (isAccepted emptyMap) with
  | false => rfl
  | true => cases entry.2.nodes.all (isAccepted emptyMap) <;> rfl

lemma mapM_image (values : List ThriftValue) :
    values.mapM (image text emptyMap) = if (values.flatMap nodes).all (isAccepted emptyMap) then
        some (values.map (rewrite text (typesRead emptyMap))) else none :=
  mapM_eq_ite emptyMap (fun _ => rfl) values

lemma image_struct :
    (struct fields).image text emptyMap =
      (fields.mapM (imageOfField text emptyMap)).map struct := by
  rw [image, nodes_struct, all_cons, mapM_imageOfField, rewrite_struct]
  simp only [isAccepted, Bool.true_and]
  split_ifs <;> rfl

lemma image_list (elemType : TType) (values : List ThriftValue) :
    (list elemType values).image text emptyMap =
      (values.mapM (image text emptyMap)).map (list elemType) := by
  rw [image, nodes_list, all_cons, mapM_image, rewrite_list]
  simp only [isAccepted, Bool.true_and]
  split_ifs <;> rfl

lemma image_set (elemType : TType) (values : List ThriftValue) :
    (set elemType values).image text emptyMap =
      (values.mapM (image text emptyMap)).map (set elemType) := by
  rw [image, nodes_set, all_cons, mapM_image, rewrite_set]
  simp only [isAccepted, Bool.true_and]
  split_ifs <;> rfl

variable (keyType valueType : TType)

lemma image_map_nil :
    (map keyType valueType []).image text emptyMap =
      (emptyMap keyType valueType).map fun types => map types.1 types.2 [] := by
  rw [image, nodes_map, rewrite_map_nil, typesRead, flatMap_nil, all_cons, all_nil,
    Bool.and_true, isAccepted]
  cases emptyMap keyType valueType <;> rfl

lemma image_map (h : entries ≠ []) :
    (map keyType valueType entries).image text emptyMap =
      (entries.mapM (imageOfEntry text emptyMap)).map (map keyType valueType) := by
  have haccepted : (map keyType valueType entries).isAccepted emptyMap := by
    cases entries with
    | nil => exact absurd rfl h
    | cons entry entries => rfl
  rw [image, nodes_map, all_cons, haccepted, Bool.true_and, mapM_imageOfEntry,
    rewrite_map _ _ _ _ h]
  split_ifs <;> rfl

end Image

/-- The integers of `k + 1` bits. -/
def InRange (k : ℕ) (z : ℤ) : Prop := -2 ^ k ≤ z ∧ z < 2 ^ k

/-- The types of a map: those of values, or none if the map is empty and has been read by a protocol
that drops them. -/
def TypesOf (dropped : Bool) (keyType valueType : TType)
    (entries : List (ThriftValue × ThriftValue)) : Prop :=
  keyType.isValueType = true ∧ valueType.isValueType = true ∨
    dropped = true ∧ entries = [] ∧ keyType = .stop ∧ valueType = .stop

/-- The value is of its type, apart from the values in it: integers have their bits, field ids 16,
lengths 32, and values the types of their container. There are no doubles. -/
def IsTyped (dropped : Bool) : ThriftValue → Prop
  | .bool _ => True
  | .byte value => InRange 7 value
  | .i16 value => InRange 15 value
  | .i32 value => InRange 31 value
  | .i64 value => InRange 63 value
  | .double _ => False
  | .string value => (utf8 value).length < 2 ^ 31
  | .struct fields =>
    (∀ field ∈ fields, InRange 15 field.1) ∧ (fields.map Prod.fst).Nodup
  | .list elemType values | .set elemType values =>
    elemType.isValueType = true ∧ values.length < 2 ^ 31 ∧ ∀ value ∈ values, value.type = elemType
  | .map keyType valueType entries =>
    TypesOf dropped keyType valueType entries ∧ entries.length < 2 ^ 31 ∧
      ∀ entry ∈ entries, entry.1.type = keyType ∧ entry.2.type = valueType

/-- The value and all values in it are of their types. -/
def WellTyped (dropped : Bool) (value : ThriftValue) : Prop :=
  ∀ node ∈ value.nodes, node.IsTyped dropped

lemma WellTyped.isTyped (h : value.WellTyped dropped) : value.IsTyped dropped :=
  h value value.mem_nodes

lemma WellTyped.of_subset {inner : ThriftValue} (h : value.WellTyped dropped)
    (hsub : inner.nodes ⊆ value.nodes) : inner.WellTyped dropped :=
  fun node hnode => h node (hsub hnode)

lemma isValueType_type (value : ThriftValue) : value.type.isValueType := by
  cases value <;> rfl

lemma IsTyped.mono (h : value.IsTyped false) : value.IsTyped true := by
  cases value with
  | map keyType valueType entries => exact ⟨h.1.imp_right fun h => absurd h.1 (by simp), h.2⟩
  | _ => exact h

lemma WellTyped.mono (h : value.WellTyped false) : value.WellTyped true :=
  fun node hnode => (h node hnode).mono

variable (htext : ∀ s, (utf8 (text s)).length ≤ (utf8 s).length)
  (htypes : ∀ {keyType valueType}, TypesOf true keyType valueType [] →
    TypesOf true (types keyType valueType).1 (types keyType valueType).2 [])

include htext htypes

lemma IsTyped.rewrite (h : value.IsTyped true) : (value.rewrite text types).IsTyped true := by
  cases value with
  | string s => exact Nat.lt_of_le_of_lt (htext s) h
  | struct fields =>
    rw [rewrite_struct]
    refine ⟨forall_mem_map.mpr h.1, ?_⟩
    rw [map_map]
    exact h.2
  | list elemType values | set elemType values =>
    simp only [rewrite_list, rewrite_set]
    refine ⟨h.1, by simpa using h.2.1, forall_mem_map.mpr fun value hvalue => ?_⟩
    rw [type_rewrite]
    exact h.2.2 value hvalue
  | map keyType valueType entries =>
    by_cases hne : entries = []
    · subst hne
      exact ⟨htypes h.1, h.2.1, fun entry hentry => absurd hentry not_mem_nil⟩
    · rw [rewrite_map _ _ _ _ hne]
      refine ⟨.inl (h.1.resolve_right fun h => hne h.2.1), by simpa using h.2.1,
        forall_mem_map.mpr fun entry hentry => ?_⟩
      rw [rewriteEntry, type_rewrite, type_rewrite]
      exact h.2.2 entry hentry
  | _ => exact h

lemma WellTyped.rewrite (h : value.WellTyped true) :
    (value.rewrite text types).WellTyped true := by
  intro node hnode
  rw [nodes_rewrite] at hnode
  obtain ⟨inner, hinner, rfl⟩ := mem_map.mp hnode
  exact (h inner hinner).rewrite htext htypes

end ThriftValue
end Fino.Thrift
