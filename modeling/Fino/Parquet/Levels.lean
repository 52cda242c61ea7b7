import Fino.Lib.Outcome
import Fino.Parquet.Nested

/-!
# What the levels say

The first definition level at a node says whether the value is null or empty, and the repetition
level behind an item whether another follows. What follows a value begins with a repetition level at
most that of the node's parent (`Below`), so a list ends where its items end.
`assembleRows_shredColumn` says what `assembleTree` takes from the streams of a column: the physical
values of all rows; or it fails at a node of which `firstLeaf` finds no leaf (`reaches`).
-/

namespace Fino.Parquet

open Lib List Option Node LeafStream
open Protobuf (Value)

/-! ## Trees -/

lemma Node.induction {P : Node → Prop}
    (leaf : ∀ info type converters path, P (.leaf info type converters path))
    (struct : ∀ info children, (∀ child ∈ children, P child) → P (.struct info children))
    (list : ∀ info child, P child → P (.list info child))
    (map : ∀ info child, P child → P (.map info child)) : ∀ node, P node
  | .leaf info type converters path => leaf info type converters path
  | .struct info children => struct info children (go children)
  | .list info child => list info child (induction leaf struct list map child)
  | .map info child => map info child (induction leaf struct list map child)
where
  go : ∀ children : List Node, ∀ child ∈ children, P child
    | [] => fun _ h => absurd h not_mem_nil
    | child :: children => forall_mem_cons.mpr
      ⟨induction leaf struct list map child, go children⟩

mutual

/-- The levels of a tree are those that `buildNode` computes from those of the parent. -/
def Node.Leveled : Node → ℕ → ℕ → Prop
  | .leaf info type converters _, parentDef, parentRep =>
    info.defLevel = parentDef + info.nullable.toNat ∧ info.repLevel = parentRep ∧
      arrowTypeToParquet type = .ok converters
  | .struct info children, parentDef, parentRep =>
    info.defLevel = parentDef + info.nullable.toNat ∧ info.repLevel = parentRep ∧
      AllLeveled children info.defLevel parentRep
  | .list info child, parentDef, parentRep | .map info child, parentDef, parentRep =>
    info.defLevel = parentDef + info.nullable.toNat ∧ info.repLevel = parentRep + 1 ∧
      child.Leveled (info.defLevel + 1) info.repLevel

def AllLeveled : List Node → ℕ → ℕ → Prop
  | [], _, _ => True
  | child :: children, parentDef, parentRep =>
    child.Leveled parentDef parentRep ∧ AllLeveled children parentDef parentRep

end

variable {children : List Node} {parentDef parentRep : ℕ}

lemma allLeveled_iff :
    AllLeveled children parentDef parentRep ↔
      ∀ child ∈ children, child.Leveled parentDef parentRep := by
  induction children with
  | nil => simp [AllLeveled]
  | cons child children ih => rw [AllLeveled, ih, forall_mem_cons]

variable {node : Node}

lemma Node.Leveled.defLevel_eq (h : node.Leveled parentDef parentRep) :
    node.defLevel = parentDef + node.info.nullable.toNat := by
  cases node <;> exact h.1

mutual

lemma leveled_of_buildNode {field : FieldInfo} {node : Node} : ∀ {type : DataType}
    {parentDef parentRep : ℕ} {path : List String},
    buildNode field type parentDef parentRep path = .ok node → node.Leveled parentDef parentRep
  | .leaf type, parentDef, parentRep, path, h => by
    obtain ⟨converters, hconverters, hnode⟩ := Outcome.bind_eq_ok.mp (by rwa [buildNode] at h)
    cases hnode
    exact ⟨rfl, rfl, hconverters⟩
  | .struct children, parentDef, parentRep, path, h => by
    obtain ⟨nodes, hnodes, hnode⟩ := Outcome.bind_eq_ok.mp (by rwa [buildNode] at h)
    cases hnode
    exact ⟨rfl, rfl, allLeveled_of_buildChildren hnodes⟩
  | .list item type, parentDef, parentRep, path, h
  | .map item type, parentDef, parentRep, path, h => by
    obtain ⟨child, hchild, hnode⟩ := Outcome.bind_eq_ok.mp (by rwa [buildNode] at h)
    cases hnode
    exact ⟨rfl, rfl, leveled_of_buildNode hchild⟩

lemma allLeveled_of_buildChildren {nodes : List Node} :
    ∀ {fields : List (FieldInfo × DataType)} {parentDef parentRep : ℕ} {path : List String},
    buildChildren fields parentDef parentRep path = .ok nodes → AllLeveled nodes parentDef parentRep
  | [], parentDef, parentRep, path, h => by
    cases h
    trivial
  | (field, type) :: fields, parentDef, parentRep, path, h => by
    obtain ⟨node, hnode, hrest⟩ := Outcome.bind_eq_ok.mp (by rwa [buildChildren] at h)
    obtain ⟨nodes, hnodes, h⟩ := Outcome.bind_eq_ok.mp hrest
    cases h
    exact ⟨leveled_of_buildNode hnode, allLeveled_of_buildChildren hnodes⟩

end

lemma LeafStream.append_assoc (s t u : LeafStream) :
    (s.append t).append u = s.append (t.append u) := by
  simp [append]

lemma LeafStream.empty_append (s : LeafStream) : append {} s = s := by
  simp [append]

variable {s t : List LeafStream}

lemma length_join (h : s.length = t.length) : (join s t).length = t.length := by
  rw [join, length_zipWith, h, Nat.min_self]

lemma join_assoc (s t u : List LeafStream) : join (join s t) u = join s (join t u) := by
  induction s generalizing t u with
  | nil => rfl
  | cons s l ih =>
    cases t with
    | nil => rfl
    | cons t l' =>
      cases u with
      | nil => rfl
      | cons u l'' =>
        simp only [join, zipWith_cons_cons, LeafStream.append_assoc, List.cons.injEq, true_and]
        exact ih l' l''

lemma join_append {s' t' : List LeafStream} (h : s.length = t.length) :
    join (s ++ s') (t ++ t') = join s t ++ join s' t' :=
  zipWith_append h

lemma join_replicate {n : ℕ} (h : t.length = n) : join (List.replicate n {}) t = t := by
  subst h
  induction t with
  | nil => rfl
  | cons s t ih =>
    simp only [join, length_cons, replicate_succ, zipWith_cons_cons,
      empty_append, List.cons.injEq, true_and]
    exact ih

/-! ## The streams of a value -/

variable {defLevel repLevel : ℕ}

lemma length_emitAbsents
    (h : ∀ child ∈ children, (emitAbsent repLevel defLevel child).length = child.leafCount) :
    (emitAbsents repLevel defLevel children).length = leafCounts children := by
  induction children with
  | nil => rfl
  | cons child children ih =>
    obtain ⟨hchild, hchildren⟩ := forall_mem_cons.mp h
    rw [emitAbsents, leafCounts, length_append, hchild, ih hchildren]

lemma length_emitAbsent (repLevel defLevel : ℕ) (node : Node) :
    (emitAbsent repLevel defLevel node).length = node.leafCount := by
  induction node using induction with
  | leaf => rfl
  | struct info children ih => exact length_emitAbsents ih
  | list info child ih => exact ih
  | map info child ih => exact ih

variable {shred : Value → ℕ → List LeafStream} {items : List Value} {rep leafCount : ℕ}

lemma length_shredItems (h : ∀ item ∈ items, ∀ rep, (shred item rep).length = leafCount) :
    (shredItems shred leafCount repLevel rep items).length = leafCount := by
  induction items generalizing rep with
  | nil => exact length_replicate
  | cons item items ih =>
    obtain ⟨hitem, hitems⟩ := forall_mem_cons.mp h
    rw [shredItems, length_join ((hitem rep).trans (ih hitems).symm), ih hitems]

variable {child : Node} {info : NodeInfo} {value obj : Value}

lemma length_shredList (h : ∀ item rep, (shred item rep).length = child.leafCount) :
    (shredList shred info child value repLevel defLevel).length = child.leafCount := by
  rw [shredList]
  split_ifs
  · exact length_emitAbsent _ _ child
  · exact length_emitAbsent _ _ child
  · exact length_shredItems fun item _ rep => h item rep

lemma length_shredFields (h : ∀ child ∈ children, ∀ value,
      (shredValue child value repLevel defLevel).length = child.leafCount) :
    (shredFields children obj repLevel defLevel).length = leafCounts children := by
  induction children with
  | nil => rfl
  | cons child children ih =>
    obtain ⟨hchild, hchildren⟩ := forall_mem_cons.mp h
    rw [shredFields, leafCounts, length_append, hchild, ih hchildren]

lemma length_shredValue (node : Node) (value : Value) (repLevel defLevel : ℕ) :
    (shredValue node value repLevel defLevel).length = node.leafCount := by
  induction node using induction generalizing value repLevel defLevel with
  | leaf =>
    rw [shredValue]
    split_ifs <;> rfl
  | struct info children ih =>
    rw [shredValue]
    split_ifs
    · exact length_emitAbsent _ _ (.struct info children)
    · exact length_shredFields fun child hchild value => ih child hchild value _ _
  | list info child ih => exact length_shredList fun item rep => ih item rep _
  | map info child ih => exact length_shredList fun pair rep => ih (entryOf pair) rep _

/-- A stream begins with a slot of a repetition level, and of at least a definition level. -/
def StartsAt (repLevel defLevel : ℕ) (s : LeafStream) : Prop :=
  s.repLevels.head? = some repLevel ∧ ∃ d, defLevel ≤ d ∧ s.defLevels.head? = some d

lemma StartsAt.mono {defLevel' : ℕ} {s : LeafStream} (h : StartsAt repLevel defLevel s)
    (hle : defLevel' ≤ defLevel) :
    StartsAt repLevel defLevel' s := by
  obtain ⟨hrep, d, hd, hdef⟩ := h
  exact ⟨hrep, d, hle.trans hd, hdef⟩

lemma StartsAt.append {s : LeafStream} (h : StartsAt repLevel defLevel s) (t : LeafStream) :
    StartsAt repLevel defLevel (s.append t) := by
  obtain ⟨hrep, d, hd, hdef⟩ := h
  refine ⟨?_, d, hd, ?_⟩
  · rw [LeafStream.append, List.head?_append, hrep, some_or]
  · rw [LeafStream.append, List.head?_append, hdef, some_or]

lemma startsAt_join (h : ∀ x ∈ s, StartsAt repLevel defLevel x) :
    ∀ x ∈ join s t, StartsAt repLevel defLevel x := by
  intro x hx
  obtain ⟨i, hi, rfl⟩ := mem_iff_getElem.mp hx
  simp only [join, getElem_zipWith]
  exact (h _ (getElem_mem _)).append _

lemma eq_absent_of_mem_emitAbsent (node : Node) {s : LeafStream}
    (h : s ∈ emitAbsent repLevel defLevel node) : s = .absent repLevel defLevel := by
  induction node using induction with
  | leaf => exact mem_singleton.mp h
  | struct info children ih =>
    rw [emitAbsent] at h
    induction children with
    | nil => cases h
    | cons child children ih' =>
      rcases mem_append.mp h with h | h
      · exact ih child mem_cons_self h
      · exact ih' (fun child hchild => ih child (mem_cons_of_mem _ hchild)) h
  | list info child ih => exact ih h
  | map info child ih => exact ih h

lemma startsAt_absent (repLevel defLevel : ℕ) :
    StartsAt repLevel defLevel (.absent repLevel defLevel) :=
  ⟨rfl, defLevel, le_rfl, rfl⟩

lemma startsAt_emitAbsent (node : Node) :
    ∀ s ∈ emitAbsent repLevel defLevel node, StartsAt repLevel defLevel s := by
  intro s hs
  rw [eq_absent_of_mem_emitAbsent node hs]
  exact startsAt_absent repLevel defLevel

variable {d : ℕ}

lemma startsAt_shredItems (hne : items.isEmpty = false)
    (h : ∀ item ∈ items, ∀ s ∈ shred item rep, StartsAt rep d s) :
    ∀ s ∈ shredItems shred leafCount repLevel rep items, StartsAt rep d s := by
  cases items with
  | nil => cases hne
  | cons item items =>
    exact startsAt_join (h item mem_cons_self)

lemma startsAt_shredList (hdef : info.defLevel = parentDef + info.nullable.toNat)
    (h : ∀ item rep, ∀ s ∈ shred item rep, StartsAt rep (info.defLevel + 1) s) :
    ∀ s ∈ shredList shred info child value repLevel parentDef, StartsAt repLevel parentDef s := by
  rw [shredList]
  split_ifs with hnull hempty
  · exact startsAt_emitAbsent child
  · exact fun s hs => (startsAt_emitAbsent child s hs).mono (by omega)
  · intro s hs
    exact (startsAt_shredItems (Bool.eq_false_iff.mpr hempty) (fun item _ => h item repLevel)
      s hs).mono (by omega)

lemma startsAt_shredFields
    (h : ∀ child ∈ children, ∀ value, ∀ s ∈ shredValue child value repLevel defLevel,
      StartsAt repLevel defLevel s) :
    ∀ s ∈ shredFields children obj repLevel defLevel, StartsAt repLevel defLevel s := by
  induction children with
  | nil => exact fun s hs => absurd hs not_mem_nil
  | cons child children ih =>
    obtain ⟨hchild, hchildren⟩ := forall_mem_cons.mp h
    exact forall_mem_append.mpr ⟨hchild _, ih hchildren⟩

/-- The streams of a value begin with a slot at its repetition level, and no definition level is
below that of the parent. -/
lemma startsAt_shredValue (hnode : node.Leveled parentDef parentRep) (value : Value)
    (repLevel : ℕ) :
    ∀ s ∈ shredValue node value repLevel parentDef, StartsAt repLevel parentDef s := by
  induction node using induction generalizing parentDef parentRep value repLevel with
  | leaf info type converters path =>
    obtain ⟨hdef, -⟩ := hnode
    rw [shredValue]
    split_ifs
    · exact forall_mem_singleton.mpr (startsAt_absent repLevel parentDef)
    · exact forall_mem_singleton.mpr ⟨rfl, info.defLevel, by omega, rfl⟩
  | struct info children ih =>
    obtain ⟨hdef, -, hchildren⟩ := hnode
    rw [allLeveled_iff] at hchildren
    rw [shredValue]
    split_ifs
    · exact startsAt_emitAbsent (.struct info children)
    · intro s hs
      refine (startsAt_shredFields (fun child hchild value =>
        ih child hchild (hchildren child hchild) value repLevel) s hs).mono (by omega)
  | list info child ih =>
    obtain ⟨hdef, -, hchild⟩ := hnode
    exact startsAt_shredList hdef fun item rep => ih hchild item rep
  | map info child ih =>
    obtain ⟨hdef, -, hchild⟩ := hnode
    exact startsAt_shredList hdef fun pair rep => ih hchild (entryOf pair) rep

/-! ## The heads of the cursors -/

lemma leafCount_ne_zero (h : node.hasFirstLeaf) : node.leafCount ≠ 0 := by
  induction node using induction with
  | leaf => exact Nat.one_ne_zero
  | struct info children ih =>
    cases children with
    | nil => cases h
    | cons child children =>
      have hchild := ih child mem_cons_self h
      rw [leafCount, leafCounts]
      omega
  | list info child ih => exact ih h
  | map info child ih => exact ih h

/-- The streams begin with repetition levels that are at most this one. -/
def Below (repLevel : ℕ) (rest : List LeafStream) : Prop :=
  ∀ s ∈ rest, ∀ k, s.repLevels.head? = some k → k ≤ repLevel

variable {rest : List LeafStream}

lemma Below.mono {repLevel' : ℕ} (h : Below repLevel rest) (hle : repLevel ≤ repLevel') :
    Below repLevel' rest :=
  fun s hs k hk => (h s hs k hk).trans hle

lemma below_of_startsAt (h : ∀ x ∈ s, StartsAt repLevel d x) : Below repLevel s := by
  intro x hx k hk
  rw [(h x hx).1, Option.some.injEq] at hk
  omega

lemma peekRep_le (h : Below repLevel rest) : peekRep rest ≤ repLevel := by
  cases rest with
  | nil => exact Nat.zero_le repLevel
  | cons s rest =>
    rw [peekRep, List.head?_cons, bind_some]
    cases hs : s.repLevels.head? with
    | none => exact Nat.zero_le repLevel
    | some k => exact h s mem_cons_self k hs

variable {r : ℕ}

lemma peek_of_startsAt (hne : s.length ≠ 0) (h : ∀ x ∈ s, StartsAt r d x) :
    d ≤ peekDef s ∧ peekRep s = r := by
  cases s with
  | nil => exact absurd rfl hne
  | cons x s =>
    obtain ⟨hrep, k, hk, hdef⟩ := h x mem_cons_self
    rw [peekDef, peekRep, List.head?_cons, bind_some, bind_some, hrep, hdef]
    exact ⟨hk, rfl⟩

lemma map_skip_join (hlen : s.length = t.length) (h : ∀ x ∈ s, x = .absent repLevel d) :
    (join s t).map skip = t := by
  induction s generalizing t with
  | nil => rw [join, zipWith_nil_left, map_nil, eq_nil_of_length_eq_zero hlen.symm]
  | cons x s ih =>
    cases t with
    | nil => cases hlen
    | cons y t =>
      obtain ⟨rfl, hs⟩ := forall_mem_cons.mp h
      exact congrArg (y :: ·) (ih (Nat.succ.inj hlen) hs)

lemma peekDef_emitAbsent (node : Node) (hlen : rest.length = node.leafCount)
    (hne : node.leafCount ≠ 0) :
    peekDef (join (emitAbsent repLevel d node) rest) = d := by
  have habsent : ∀ s ∈ emitAbsent repLevel d node, s = .absent repLevel d :=
    fun s hs => eq_absent_of_mem_emitAbsent _ hs
  have hlength := length_emitAbsent repLevel d node
  cases hs : emitAbsent repLevel d node with
  | nil =>
    rw [hs] at hlength
    exact absurd hlength.symm hne
  | cons s l =>
    rw [hs] at habsent
    cases rest with
    | nil => exact absurd hlen.symm hne
    | cons t rest =>
      rw [habsent s mem_cons_self]
      rfl

/-- An object that has these properties and no others, each of them once. -/
def IsRecord (names : List String) (v : Value) : Prop :=
  names.Nodup ∧ ∃ get, v = .object get ∧ ∀ name, name ∉ names → get name = .undefined

/-- A key with its value. -/
def IsPair (v : Value) : Prop := ∃ k x, v = .array [k, x]

mutual

/-- The values that a column has: those of its type, and null if it is nullable. -/
def Node.Conforms : Node → Value → Prop
  | .leaf info type _ _, v => (info.nullable ∧ v = .null) ∨ type.Holds v
  | .struct info children, v =>
    (info.nullable ∧ v = .null) ∨ (IsRecord (children.map name) v ∧ AllConform children v)
  | .list info child, v =>
    (info.nullable ∧ v = .null) ∨ ∃ l, v = .array l ∧ ∀ item ∈ l, child.Conforms item
  | .map info child, v =>
    (info.nullable ∧ v = .null) ∨
      ∃ l, v = .array l ∧ ∀ pair ∈ l, IsPair pair ∧ child.Conforms (entryOf pair)

/-- The properties of an object are values of the children of a struct. -/
def AllConform : List Node → Value → Prop
  | [], _ => True
  | child :: children, v => child.Conforms (v.get child.name) ∧ AllConform children v

end

variable {v : Value}

lemma allConform_iff :
    AllConform children v ↔ ∀ child ∈ children, child.Conforms (v.get child.name) := by
  induction children with
  | nil => simp [AllConform]
  | cons child children ih => rw [AllConform, ih, forall_mem_cons]

lemma forall_mem_itemsOf {P : Value → Prop} {null : Prop}
    (h : (null ∧ v = .null) ∨ ∃ l, v = .array l ∧ ∀ item ∈ l, P item) :
    ∀ item ∈ itemsOf v, P item := by
  rcases h with ⟨-, rfl⟩ | ⟨l, rfl, hl⟩
  · exact fun item h => absurd h not_mem_nil
  · exact hl

lemma Node.Conforms.eq_null (h : node.Conforms v) (hv : isNullish v) :
    node.info.nullable ∧ v = .null := by
  cases node with
  | leaf info type converters path =>
    rcases h with h | h
    · exact h
    · rw [h.not_isNullish] at hv
      cases hv
  | struct info children =>
    rcases h with h | ⟨⟨-, get, rfl, -⟩, -⟩
    · exact h
    · cases hv
  | list info child | map info child =>
    rcases h with h | ⟨l, rfl, -⟩
    · exact h
    · cases hv

lemma Node.Conforms.orNull_eq (h : node.Conforms v) : orNull v = v := by
  rw [orNull]
  split_ifs with hv
  · exact (h.eq_null hv).2.symm
  · rfl

/-! ## What is read -/

/-- `[e.key, e.value]`, for an object. -/
def asPair (e : Value) : Value := .array [e.get "key", e.get "value"]

mutual

def physical : Node → Value → Value
  | .leaf _ _ converters _, v => if isNullish v then .null else converters.encode v
  | .struct _ children, v =>
    if isNullish v then .null else .ofProperties (physicalFields children v).reverse
  | .list _ child, v => if isNullish v then .null else .array ((itemsOf v).map (physical child))
  | .map _ child, v =>
    if isNullish v then .null
    else .array ((itemsOf v).map fun pair => asPair (physical child (entryOf pair)))

/-- The properties of an object in the form in which they are stored. -/
def physicalFields : List Node → Value → List (String × Value)
  | [], _ => []
  | child :: children, v =>
    (child.name, physical child (v.get child.name)) :: physicalFields children v

end

mutual

/-- `firstLeaf` finds a leaf for each node that `assembleValue` comes to. -/
def reaches : Node → Value → Bool
  | .leaf _ _ _ _, _ => true
  | .struct info children, v =>
    (struct info children).hasFirstLeaf && (isNullish v || reachesFields children v)
  | .list _ child, v => child.hasFirstLeaf && (itemsOf v).all (reaches child)
  | .map _ child, v =>
    child.hasFirstLeaf && (itemsOf v).all fun pair => reaches child (entryOf pair)

def reachesFields : List Node → Value → Bool
  | [], _ => true
  | child :: children, v => reaches child (v.get child.name) && reachesFields children v

end

lemma Node.Conforms.not_isNullish_physical (hnode : node.Leveled parentDef parentRep)
    (h : node.Conforms v) (hv : isNullish v = false) : isNullish (physical node v) = false := by
  cases node with
  | leaf info type converters path =>
    rcases h with ⟨-, rfl⟩ | h
    · cases hv
    · simp only [physical, hv]
      exact (decode_encode hnode.2.2 h).1
  | struct info children | list info child | map info child => simp only [physical, hv]; rfl

def outcome {α : Type} (b : Bool) (x : α) : Except ParquetError α :=
  if b then .ok x else .error .notObject

lemma outcome_bind {α β : Type} (b : Bool) (x : α) (f : α → Except ParquetError β) :
    (outcome b x >>= f) = if b then f x else .error .notObject := by
  cases b <;> rfl

/-- The items of lists are read back from their streams, whatever follows on them. -/
structure ReadsBack (shred : Value → ℕ → List LeafStream)
    (assemble : List LeafStream → Except ParquetError (Value × List LeafStream))
    (leafCount repLevel d : ℕ) (ok : Value → Bool) (stored : Value → Value) (item : Value) :
    Prop where
  length : ∀ rep, (shred item rep).length = leafCount
  startsAt : ∀ rep, ∀ s ∈ shred item rep, StartsAt rep d s
  assemble : ∀ rep rest, rest.length = leafCount → Below repLevel rest →
    assemble (join (shred item rep) rest) = outcome (ok item) (stored item, rest)

section Items

variable {shred : Value → ℕ → List LeafStream}
  {assemble : List LeafStream → Except ParquetError (Value × List LeafStream)}
  {leafCount repLevel d : ℕ} {ok : Value → Bool} {stored : Value → Value} {items : List Value}
  {rest : List LeafStream} {item : Value}

lemma length_le_slots (hne : leafCount ≠ 0)
    (hitems : ∀ item ∈ items, ReadsBack shred assemble leafCount repLevel d ok stored item)
    (hlen : rest.length = leafCount) :
    items.length ≤ slots (join (shredItems shred leafCount repLevel repLevel items) rest) := by
  induction items with
  | nil => exact Nat.zero_le _
  | cons item items ih =>
    obtain ⟨hitem, hitems⟩ := forall_mem_cons.mp hitems
    have ih := ih hitems
    have hlength := hitem.length repLevel
    have hstarts := hitem.startsAt repLevel
    have hitems' : (shredItems shred leafCount repLevel repLevel items).length = leafCount :=
      length_shredItems fun item hitem rep => (hitems item hitem).length rep
    have hrest := length_join (hitems'.trans hlen.symm)
    rw [shredItems, join_assoc]
    generalize join (shredItems shred leafCount repLevel repLevel items) rest = rest' at *
    cases hs : shred item repLevel with
    | nil =>
      rw [hs] at hlength
      exact absurd hlength.symm hne
    | cons s l =>
      cases rest' with
      | nil => exact absurd (hlen ▸ hrest.symm) hne
      | cons t rest' =>
        obtain ⟨hrep, -⟩ := hstarts s (hs ▸ mem_cons_self)
        cases hlevels : s.repLevels with
        | nil =>
          rw [hlevels] at hrep
          cases hrep
        | cons k levels =>
          simp only [slots, join, zipWith_cons_cons, List.head?_cons, elim_some,
            LeafStream.append, hlevels, length_append, length_cons] at ih ⊢
          omega

lemma below_shredItems
    (hitems : ∀ item ∈ items, ReadsBack shred assemble leafCount repLevel d ok stored item)
    (hlen : rest.length = leafCount) (hbelow : Below repLevel rest) :
    Below repLevel (join (shredItems shred leafCount repLevel repLevel items) rest) := by
  cases items with
  | nil =>
    rw [shredItems, join_replicate hlen]
    exact hbelow
  | cons item items =>
    rw [shredItems, join_assoc]
    exact below_of_startsAt (startsAt_join ((hitems item mem_cons_self).startsAt repLevel))

lemma peek_shredItems (hne : leafCount ≠ 0)
    (hitems : ∀ x ∈ item :: items, ReadsBack shred assemble leafCount repLevel d ok stored x)
    (hlen : rest.length = leafCount) :
    d ≤ peekDef (join (shredItems shred leafCount repLevel r (item :: items)) rest) ∧
      peekRep (join (shredItems shred leafCount repLevel r (item :: items)) rest) = r := by
  have hlength : (shredItems shred leafCount repLevel r (item :: items)).length = leafCount :=
    length_shredItems fun x hx rep => (hitems x hx).length rep
  refine peek_of_startsAt ?_ (startsAt_join ?_)
  · rw [length_join (hlength.trans hlen.symm), hlen]
    exact hne
  · exact startsAt_shredItems rfl fun x hx => (hitems x hx).startsAt r

lemma assemble_shredItems_cons
    (hitems : ∀ x ∈ item :: items, ReadsBack shred assemble leafCount repLevel d ok stored x)
    (hlen : rest.length = leafCount) (hbelow : Below repLevel rest) :
    assemble (join (shredItems shred leafCount repLevel rep (item :: items)) rest) =
      outcome (ok item) (stored item,
        join (shredItems shred leafCount repLevel repLevel items) rest) := by
  obtain ⟨hitem, hitems⟩ := forall_mem_cons.mp hitems
  have hlength : (shredItems shred leafCount repLevel repLevel items).length = leafCount :=
    length_shredItems fun item hitem rep => (hitems item hitem).length rep
  rw [shredItems, join_assoc]
  exact hitem.assemble rep _ ((length_join (hlength.trans hlen.symm)).trans hlen)
    (below_shredItems hitems hlen hbelow)

lemma assembleItems_shredItems {turns : ℕ} (hne : leafCount ≠ 0)
    (hitems : ∀ item ∈ items, ReadsBack shred assemble leafCount repLevel d ok stored item)
    (hlen : rest.length = leafCount) (hr : r < repLevel) (hbelow : Below r rest)
    (hturns : items.length ≤ turns) :
    assembleItems assemble repLevel turns
        (join (shredItems shred leafCount repLevel repLevel items) rest) =
      outcome (items.all ok) (items.map stored, rest) := by
  induction items generalizing turns with
  | nil =>
    have hpeek := peekRep_le hbelow
    rw [shredItems, join_replicate hlen]
    cases turns with
    | zero => rfl
    | succ turns =>
      rw [assembleItems, if_neg (by omega)]
      rfl
  | cons item items ih =>
    obtain ⟨turns, rfl⟩ := Nat.exists_eq_add_of_lt (Nat.lt_of_lt_of_le (Nat.succ_pos _) hturns)
    have hpeek := (peek_shredItems (r := repLevel) hne hitems hlen).2
    rw [assembleItems, if_pos hpeek.ge,
      assemble_shredItems_cons hitems hlen (hbelow.mono hr.le), outcome_bind]
    dsimp only
    rw [ih (fun x hx => hitems x (mem_cons_of_mem _ hx)) (Nat.le_of_succ_le_succ hturns),
      outcome_bind]
    simp only [all_cons, map_cons]
    cases ok item <;> cases items.all ok <;> rfl

end Items

lemma itemsOf_eq_nil (h : isNullish v) : itemsOf v = [] := by
  cases v <;> first | rfl | cases h

lemma assembleList_shredList
    {assemble : List LeafStream → Except ParquetError (Value × List LeafStream)} {ok : Value → Bool}
    {stored : Value → Value} (hdef : info.defLevel = parentDef + info.nullable.toNat)
    (hrep : info.repLevel = parentRep + 1) (hnull : isNullish value → info.nullable)
    (hitems : ∀ item ∈ itemsOf value, ReadsBack shred assemble child.leafCount info.repLevel
      (info.defLevel + 1) ok stored item) (hlen : rest.length = child.leafCount)
    (hbelow : Below parentRep rest) :
    assembleList assemble info child
        (join (shredList shred info child value repLevel parentDef) rest) =
      outcome (child.hasFirstLeaf && (itemsOf value).all ok)
        (if isNullish value then .null else .array ((itemsOf value).map stored), rest) := by
  rw [assembleList, shredList]
  by_cases hleaf : child.hasFirstLeaf
  swap
  · rw [if_neg hleaf, Bool.eq_false_iff.mpr hleaf]
    rfl
  have hne := leafCount_ne_zero hleaf
  rw [if_pos hleaf, hleaf]
  have hskip : ∀ d, (join (emitAbsent repLevel d child) rest).map skip = rest := fun d =>
    map_skip_join ((length_emitAbsent _ _ _).trans hlen.symm)
      fun s hs => eq_absent_of_mem_emitAbsent _ hs
  cases hv : isNullish value with
  | true =>
    have hnullable := hnull hv
    have hlt : parentDef < info.defLevel := by
      rw [hdef, hnullable]
      exact Nat.lt_succ_self parentDef
    rw [if_pos rfl, hskip, peekDef_emitAbsent child hlen hne, if_pos hlt, itemsOf_eq_nil hv]
    rfl
  | false =>
    rw [if_neg Bool.false_ne_true]
    cases hl : itemsOf value with
    | nil =>
      rw [isEmpty_nil, if_pos rfl, hskip, peekDef_emitAbsent child hlen hne,
        if_neg (Nat.lt_irrefl _), if_pos rfl]
      rfl
    | cons item items =>
      rw [hl] at hitems
      have hpeek := (peek_shredItems (r := repLevel) hne hitems hlen).1
      have hitems' := fun x hx => hitems x (mem_cons_of_mem item hx)
      rw [isEmpty_cons, if_neg Bool.false_ne_true, if_neg (by omega), if_neg (by omega),
        assemble_shredItems_cons hitems hlen (hbelow.mono (by omega)), outcome_bind]
      dsimp only
      rw [assembleItems_shredItems hne hitems' hlen (by omega) hbelow
        (length_le_slots hne hitems' hlen), outcome_bind]
      simp only [all_cons, map_cons]
      cases ok item <;> cases items.all ok <;> rfl

lemma assembleFields_shredFields
    (hchildren : ∀ child ∈ children, child.Conforms (v.get child.name) ∧
      ∀ rest, rest.length = child.leafCount → Below r rest →
        assembleValue child (join (shredValue child (v.get child.name) repLevel d) rest) =
          outcome (reaches child (v.get child.name)) (physical child (v.get child.name), rest))
    (hlen : rest.length = leafCounts children) (hbelow : Below r rest) :
    assembleFields children (join (shredFields children v repLevel d) rest) =
      outcome (reachesFields children v) (physicalFields children v, rest) := by
  induction children generalizing rest with
  | nil =>
    rw [eq_nil_of_length_eq_zero hlen]
    rfl
  | cons child children ih =>
    obtain ⟨⟨hconforms, hchild⟩, hchildren⟩ := forall_mem_cons.mp hchildren
    rw [leafCounts] at hlen
    -- The cursors of the first child, and those of the others.
    obtain ⟨rest, rest', rfl, hrest⟩ : ∃ l l', rest = l ++ l' ∧ l.length = child.leafCount :=
      ⟨rest.take child.leafCount, rest.drop child.leafCount, (take_append_drop _ _).symm,
        by rw [length_take]; omega⟩
    have hrest' : rest'.length = leafCounts children := by
      rw [length_append] at hlen
      omega
    obtain ⟨hbelow, hbelow'⟩ := forall_mem_append.mp hbelow
    have hlength := (length_shredValue child (v.get child.name) repLevel d).trans hrest.symm
    rw [assembleFields, shredFields, hconforms.orNull_eq, join_append hlength,
      take_left' ((length_join hlength).trans hrest),
      drop_left' ((length_join hlength).trans hrest), hchild rest hrest hbelow, outcome_bind]
    dsimp only
    rw [ih hchildren hrest' hbelow', outcome_bind]
    simp only [reachesFields, physicalFields]
    cases reaches child (v.get child.name) <;> cases reachesFields children v <;> rfl

lemma assembleValue_leaf {type : LeafType} {converters : ParquetTypeInfo} {path : List String}
    (cur : LeafStream) :
    assembleValue (.leaf info type converters path) [cur] =
      .ok ((takeLeaf info.defLevel cur).1, [(takeLeaf info.defLevel cur).2]) :=
  rfl

lemma assembleValue_shredValue (hnode : node.Leveled parentDef parentRep)
    (hvalue : node.Conforms value) (hlen : rest.length = node.leafCount)
    (hbelow : Below parentRep rest) :
    assembleValue node (join (shredValue node value repLevel parentDef) rest) =
      outcome (reaches node value) (physical node value, rest) := by
  induction node using induction generalizing parentDef parentRep repLevel value rest with
  | leaf info type converters path =>
    obtain ⟨hdef, -, -⟩ := hnode
    obtain ⟨s, rfl⟩ := length_eq_one_iff.mp hlen
    rw [shredValue, physical]
    cases hv : isNullish value with
    | true =>
      obtain ⟨hnullable, rfl⟩ := hvalue.eq_null hv
      have hlt : ¬ info.defLevel ≤ parentDef := by
        rw [hdef, show info.nullable from hnullable]
        simp
      simp [join, absent, LeafStream.append, assembleValue_leaf, takeLeaf,
        skip, hlt, outcome, reaches]
    | false =>
      simp [join, LeafStream.append, assembleValue_leaf, takeLeaf, skip, outcome, reaches]
  | struct info children ih =>
    obtain ⟨hdef, hrep, hchildren⟩ := hnode
    rw [allLeveled_iff] at hchildren
    rw [assembleValue, shredValue, reaches, physical]
    by_cases hleaf : (struct info children).hasFirstLeaf
    swap
    · rw [if_neg hleaf, Bool.eq_false_iff.mpr hleaf]
      rfl
    have hne := leafCount_ne_zero hleaf
    rw [if_pos hleaf, hleaf]
    cases hv : isNullish value with
    | true =>
      obtain ⟨hnullable, rfl⟩ := hvalue.eq_null hv
      have hpeek : peekDef (join (emitAbsents repLevel parentDef children) rest) = parentDef :=
        peekDef_emitAbsent (.struct info children) hlen hne
      have hskip : (join (emitAbsents repLevel parentDef children) rest).map skip = rest :=
        map_skip_join ((length_emitAbsent _ _ (.struct info children)).trans hlen.symm)
          fun s hs => eq_absent_of_mem_emitAbsent (.struct info children) hs
      have hlt : parentDef < info.defLevel := by
        rw [hdef, show info.nullable from hnullable]
        exact Nat.lt_succ_self parentDef
      rw [if_pos rfl, hpeek, hskip, if_pos hlt]
      rfl
    | false =>
      rcases hvalue with ⟨-, rfl⟩ | ⟨-, hconform⟩
      · cases hv
      rw [allConform_iff] at hconform
      have hlength : (shredFields children value repLevel info.defLevel).length = rest.length :=
        (length_shredFields fun child _ value => length_shredValue child value _ _).trans hlen.symm
      have hpeek : info.defLevel ≤
          peekDef (join (shredFields children value repLevel info.defLevel) rest) := by
        refine (peek_of_startsAt ?_ (startsAt_join (startsAt_shredFields fun child hchild value =>
          startsAt_shredValue (hchildren child hchild) value repLevel))).1
        rw [length_join hlength, hlen]
        exact hne
      rw [if_neg Bool.false_ne_true, if_neg (by omega),
        assembleFields_shredFields (fun child hchild => ⟨hconform child hchild,
          fun rest hlen hbelow => ih child hchild (hchildren child hchild)
            (hconform child hchild) hlen hbelow⟩) hlen hbelow, outcome_bind]
      cases reachesFields children value <;> rfl
  | list info child ih =>
    obtain ⟨hdef, hrep, hchild⟩ := hnode
    have hnull : isNullish value → info.nullable := fun hv => (hvalue.eq_null hv).1
    have hitems := forall_mem_itemsOf hvalue
    refine assembleList_shredList hdef hrep hnull (fun item hitem => ?_) hlen hbelow
    exact ⟨fun rep => length_shredValue child item rep _,
      fun rep => startsAt_shredValue hchild item rep,
      fun rep rest hlen hbelow => ih hchild (hitems item hitem) hlen hbelow⟩
  | map info child ih =>
    obtain ⟨hdef, hrep, hchild⟩ := hnode
    have hnull : isNullish value → info.nullable := fun hv => (hvalue.eq_null hv).1
    have hpairs := forall_mem_itemsOf hvalue
    rw [assembleValue, shredValue, reaches, physical]
    refine assembleList_shredList hdef hrep hnull (fun pair hpair => ?_) hlen hbelow
    refine ⟨fun rep => length_shredValue child (entryOf pair) rep _,
      fun rep => startsAt_shredValue hchild (entryOf pair) rep, fun rep rest hlen hbelow => ?_⟩
    have hstored := (hpairs pair hpair).2.not_isNullish_physical hchild rfl
    rw [ih hchild (hpairs pair hpair).2 hlen hbelow, outcome_bind]
    dsimp only
    rw [pairOf, hstored]
    cases reaches child (entryOf pair) <;> rfl

/-- The rows of a column are read back from its streams, and nothing is left of these. -/
lemma assembleRows_shredColumn {rows : List Value} (hnode : node.Leveled 0 0)
    (hrows : ∀ row ∈ rows, node.Conforms row) :
    assembleRows node rows.length (shredColumn node rows) = outcome (rows.all (reaches node))
        (rows.map (physical node), List.replicate node.leafCount {}) := by
  rw [shredColumn]
  induction rows with
  | nil => rfl
  | cons row rows ih =>
    obtain ⟨hrow, hrows⟩ := forall_mem_cons.mp hrows
    have hlength : (shredItems (fun row rep => shredValue node row rep 0) node.leafCount 0 0
        rows).length = node.leafCount :=
      length_shredItems fun row _ rep => length_shredValue node row rep 0
    have hbelow : Below 0 (shredItems (fun row rep => shredValue node row rep 0) node.leafCount 0 0
        rows) := by
      cases rows with
      | nil =>
        intro s hs k hk
        rw [eq_of_mem_replicate hs] at hk
        cases hk
      | cons row rows =>
        exact below_of_startsAt (startsAt_join (startsAt_shredValue hnode row 0))
    rw [length_cons, assembleRows, shredItems,
      assembleValue_shredValue hnode hrow hlength hbelow, outcome_bind]
    dsimp only
    rw [ih hrows, outcome_bind]
    simp only [all_cons, map_cons]
    cases reaches node row <;> cases rows.all (reaches node) <;> rfl

end Fino.Parquet
