import Fino.Lib.Outcome
import Fino.Thrift.Binary
import Fino.Thrift.Compact
import Fino.Thrift.Json

/-!
# From one protocol to another

A struct goes through one protocol and then another. `transcode_iff` says for which structs this
gives the struct again, up to the types of its empty maps: the binary and the compact protocol take
a byte order mark off texts, and the compact protocol forgets the types of an empty map, which the
JSON protocol then cannot read.
-/

namespace Fino.Thrift

open Lib Lib.Wire ThriftValue

inductive Format
  | binary
  | compact
  | json
deriving DecidableEq

namespace Format

def protocol (doubles : Json.Doubles) : Format → Protocol
  | binary => Binary.protocol
  | compact => Compact.protocol
  | json => Json.protocol doubles

end Format

def readBack (protocol : Protocol) (n : ℕ) (fields : List (ℤ × ThriftValue)) :
    Except ThriftError (List (ℤ × ThriftValue)) := do
  decodeStruct protocol n (← encodeStruct protocol fields)

/-- A struct is written and read back with one protocol and then with another one. -/
def transcode (doubles : Json.Doubles) (P Q : Format) (n : ℕ) (fields : List (ℤ × ThriftValue)) :
    Except ThriftError (List (ℤ × ThriftValue)) := do
  readBack (Q.protocol doubles) n (← readBack (P.protocol doubles) n fields)

def ThriftValue.withoutEmptyTypes (value : ThriftValue) : ThriftValue :=
  value.rewrite id fun _ _ => (.stop, .stop)

/-- The values are the same up to the types of empty maps. -/
def Alike (value value' : ThriftValue) : Prop :=
  value.withoutEmptyTypes = value'.withoutEmptyTypes

/-- Texts without a byte order mark, if not both are JSON, and no empty maps from the compact
protocol to JSON. -/
def Carries (P Q : Format) (value : ThriftValue) : Prop :=
  (P = .json ∧ Q = .json ∨ ∀ s, .string s ∈ value.nodes → ¬ IsMarked s) ∧
    ¬ (P = .compact ∧ Q = .json ∧ ∃ keyType valueType, .map keyType valueType [] ∈ value.nodes)

def Format.laws (doubles : Json.Doubles) : (P : Format) → Laws (P.protocol doubles)
  | .binary => Binary.laws
  | .compact => Compact.laws
  | .json => Json.laws doubles

variable {value : ThriftValue}

section Laws

variable {protocol : Protocol} (laws : Laws protocol)

/-- What a protocol makes of a value that it reads. -/
def Laws.rewrite (value : ThriftValue) : ThriftValue :=
  value.rewrite laws.text (typesRead laws.emptyMap)

/-- The reader accepts every value inside this one. -/
def Laws.Accepts (value : ThriftValue) : Prop :=
  ∀ node ∈ value.nodes, node.isAccepted laws.emptyMap = true

lemma Laws.wellTyped_rewrite (h : value.WellTyped true) :
    (laws.rewrite value).WellTyped true := by
  refine h.rewrite laws.length_text fun {keyType valueType} htypes => ?_
  rw [typesRead]
  cases hread : laws.emptyMap keyType valueType with
  | none => exact htypes
  | some types => exact laws.emptyMap_typed hread htypes

lemma Laws.length_nodes_rewrite (value : ThriftValue) :
    (laws.rewrite value).nodes.length = value.nodes.length := by
  rw [Laws.rewrite, nodes_rewrite, List.length_map]

lemma Laws.exists_rewrite_struct (fields : List (ℤ × ThriftValue)) :
    ∃ read, laws.rewrite (.struct fields) = .struct read :=
  ⟨_, rewrite_struct _ _ fields⟩

lemma Laws.readBack_eq_ok {fields read : List (ℤ × ThriftValue)} {n : ℕ}
    (htyped : (ThriftValue.struct fields).WellTyped true)
    (hn : (ThriftValue.struct fields).nodes.length ≤ n) :
    readBack protocol n fields = .ok read ↔
      laws.Accepts (.struct fields) ∧ .struct read = laws.rewrite (.struct fields) := by
  obtain ⟨bytes, hencode, hdecode⟩ := laws.decodeStruct_encodeStruct htyped hn
  have hrun : readBack protocol n fields = decodeStruct protocol n bytes := by
    rw [readBack, hencode]
    rfl
  have haccepts : laws.Accepts (.struct fields) ↔
      (fields.flatMap fun field => field.2.nodes).all (isAccepted laws.emptyMap) := by
    rw [Laws.Accepts, nodes_struct, List.forall_mem_cons, List.all_eq_true]
    exact and_iff_right rfl
  rw [Laws.imageOfFields, mapM_imageOfField] at hdecode
  rw [hrun, haccepts, Laws.rewrite, rewrite_struct, ThriftValue.struct.injEq]
  cases hresult : decodeStruct protocol n bytes with
  | error e =>
    rw [hresult] at hdecode
    split_ifs at hdecode with hall
    · cases hdecode
    · simp [hall]
  | ok out =>
    rw [hresult] at hdecode
    split_ifs at hdecode with hall
    · cases hdecode
      simp [hall, eq_comm]
    · cases hdecode

end Laws

/-! ## Two protocols -/

lemma dropMark_dropMark_eq_self {s : String} : dropMark (dropMark s) = s ↔ ¬ IsMarked s := by
  constructor
  · intro h hmarked
    have hle := length_utf8_dropMark (dropMark s)
    have hlt := length_utf8_dropMark_lt hmarked
    rw [h] at hle
    omega
  · intro h
    rw [dropMark_eq_self.mpr h, dropMark_eq_self.mpr h]

variable (doubles : Json.Doubles) (P Q : Format)

lemma text_text_eq_iff (s : String) :
    (Q.laws doubles).text ((P.laws doubles).text s) = s ↔ P = .json ∧ Q = .json ∨ ¬ IsMarked s := by
  cases P <;> cases Q <;>
    simp [Format.laws, Binary.laws, Compact.laws, Json.laws, dropMark_eq_self,
      dropMark_dropMark_eq_self]

lemma accepts_of_wellTyped (P : Format)
    (h : value.WellTyped false) : (P.laws doubles).Accepts value := by
  intro node hnode
  have htyped := h node hnode
  unfold isAccepted
  split
  case h_1 keyType valueType =>
    obtain ⟨hkey, hvalue⟩ := htyped.1.resolve_right fun h => absurd h.1 (by simp)
    cases P with
    | binary => rfl
    | compact => rfl
    | json => simp [Format.laws, Json.laws, hkey, hvalue]
  case h_2 => rfl

/-- A map that was empty before it was read is accepted with the types it was read with. -/
lemma isAccepted_rewrite {text : String → String} {types : TType → TType → TType × TType}
    {emptyMap : TType → TType → Option (TType × TType)} :
    (value.rewrite text types).isAccepted emptyMap ↔
      ∀ keyType valueType, value = .map keyType valueType [] →
        (emptyMap (types keyType valueType).1 (types keyType valueType).2).isSome := by
  cases value with
  | map keyType valueType entries =>
    cases entries with
    | nil => simp [rewrite_map_nil, isAccepted]
    | cons entry entries => simp [rewrite_map, isAccepted]
  | _ => simp [ThriftValue.rewrite, isAccepted]

lemma isSome_emptyMap_iff {keyType valueType : TType} (h : keyType.isValueType)
    (h' : valueType.isValueType) :
    ((Q.laws doubles).emptyMap (typesRead (P.laws doubles).emptyMap keyType valueType).1
      (typesRead (P.laws doubles).emptyMap keyType valueType).2).isSome ↔
      ¬ (P = .compact ∧ Q = .json) := by
  have hstop : TType.stop.isValueType = false := rfl
  cases P <;> cases Q <;>
    simp [Format.laws, Binary.laws, Compact.laws, Json.laws, typesRead, h, h', hstop]

lemma accepts_rewrite_iff (h : value.WellTyped false) :
    (Q.laws doubles).Accepts ((P.laws doubles).rewrite value) ↔
      ¬ (P = .compact ∧ Q = .json ∧ ∃ keyType valueType,
        .map keyType valueType [] ∈ value.nodes) := by
  have htypes {keyType valueType : TType} (hmem : .map keyType valueType [] ∈ value.nodes) :
      keyType.isValueType ∧ valueType.isValueType :=
    (h (.map keyType valueType []) hmem).1.resolve_right fun h => absurd h.1 (by simp)
  rw [Laws.Accepts, Laws.rewrite, nodes_rewrite, List.forall_mem_map]
  simp only [isAccepted_rewrite]
  constructor
  · rintro haccepts ⟨hP, hQ, keyType, valueType, hmem⟩
    have hsome := haccepts _ hmem keyType valueType rfl
    obtain ⟨hkey, hvalue⟩ := htypes hmem
    exact (isSome_emptyMap_iff doubles P Q hkey hvalue).mp hsome ⟨hP, hQ⟩
  · rintro hne node hnode keyType valueType rfl
    obtain ⟨hkey, hvalue⟩ := htypes hnode
    exact (isSome_emptyMap_iff doubles P Q hkey hvalue).mpr fun hPQ =>
      hne ⟨hPQ.1, hPQ.2, keyType, valueType, hnode⟩

lemma alike_rewrite_iff {protocol protocol' : Protocol} (laws : Laws protocol)
    (laws' : Laws protocol') (value : ThriftValue) :
    Alike (laws'.rewrite (laws.rewrite value)) value ↔
      ∀ s, .string s ∈ value.nodes → laws'.text (laws.text s) = s := by
  rw [Alike, withoutEmptyTypes, withoutEmptyTypes, Laws.rewrite, Laws.rewrite, rewrite_rewrite,
    rewrite_rewrite]
  exact rewrite_eq_rewrite_iff

lemma transcode_eq_ok {fields read : List (ℤ × ThriftValue)} {n : ℕ}
    (htyped : (ThriftValue.struct fields).WellTyped false)
    (hn : (ThriftValue.struct fields).nodes.length ≤ n) :
    transcode doubles P Q n fields = .ok read ↔
      (Q.laws doubles).Accepts ((P.laws doubles).rewrite (.struct fields)) ∧
        .struct read = (Q.laws doubles).rewrite ((P.laws doubles).rewrite (.struct fields)) := by
  have hsecond {first : List (ℤ × ThriftValue)}
      (hfirst : .struct first = (P.laws doubles).rewrite (.struct fields)) :
      readBack (Q.protocol doubles) n first = .ok read ↔ (Q.laws doubles).Accepts (.struct first) ∧
          .struct read = (Q.laws doubles).rewrite (.struct first) := by
    refine (Q.laws doubles).readBack_eq_ok ?_ ?_
    · rw [hfirst]
      exact (P.laws doubles).wellTyped_rewrite htyped.mono
    · rwa [hfirst, Laws.length_nodes_rewrite]
  rw [transcode, Outcome.bind_eq_ok]
  constructor
  · rintro ⟨first, hfirst, hread⟩
    obtain ⟨-, hfirst⟩ := ((P.laws doubles).readBack_eq_ok htyped.mono hn).mp hfirst
    have hread := (hsecond hfirst).mp hread
    rwa [hfirst] at hread
  · intro hread
    have hfirst : .struct (fields.map (rewriteField (P.laws doubles).text
        (typesRead (P.laws doubles).emptyMap))) = (P.laws doubles).rewrite (.struct fields) :=
      (rewrite_struct _ _ fields).symm
    refine ⟨_, ((P.laws doubles).readBack_eq_ok htyped.mono hn).mpr
      ⟨accepts_of_wellTyped doubles P htyped, hfirst⟩, (hsecond hfirst).mpr ?_⟩
    rwa [hfirst]

/-- A struct comes through two protocols if its texts have no byte order marks and its empty maps do
not lose the types that are then needed. -/
theorem transcode_iff (doubles : Json.Doubles) (P Q : Format) {fields : List (ℤ × ThriftValue)}
    {n : ℕ} (htyped : (ThriftValue.struct fields).WellTyped false)
    (hn : (ThriftValue.struct fields).nodes.length ≤ n) :
    (∃ read, transcode doubles P Q n fields = .ok read ∧
      Alike (.struct read) (.struct fields)) ↔ Carries P Q (.struct fields) := by
  have htexts : (P = .json ∧ Q = .json ∨
      ∀ s, .string s ∈ (ThriftValue.struct fields).nodes → ¬ IsMarked s) ↔
      ∀ s, .string s ∈ (ThriftValue.struct fields).nodes →
        (Q.laws doubles).text ((P.laws doubles).text s) = s := by
    simp only [text_text_eq_iff]
    by_cases hjson : P = .json ∧ Q = .json
    · simp [hjson]
    · simp [hjson]
  rw [Carries, ← accepts_rewrite_iff doubles P Q htyped, htexts, ← alike_rewrite_iff]
  simp only [transcode_eq_ok doubles P Q htyped hn]
  constructor
  · rintro ⟨read, ⟨haccepts, hread⟩, halike⟩
    rw [hread] at halike
    exact ⟨halike, haccepts⟩
  · rintro ⟨halike, haccepts⟩
    obtain ⟨first, hfirst⟩ := (P.laws doubles).exists_rewrite_struct fields
    obtain ⟨read, hread⟩ := (Q.laws doubles).exists_rewrite_struct first
    rw [hfirst, hread] at halike
    exact ⟨read, ⟨haccepts, by rw [hfirst, hread]⟩, halike⟩

def Json.Doubles.none : Json.Doubles := ⟨fun _ => pure (), throw .bound⟩

/-- A list and an empty map come from the compact protocol to the binary one. -/
theorem lists_and_empty_maps_come_through :
    ∃ read, transcode .none .compact .binary 9
      [(1, .bool true), (40, .list .i32 [.i32 (-5), .i32 7]), (3, .map .string .i32 [])] =
        .ok read ∧
      Alike (.struct read) (.struct
        [(1, .bool true), (40, .list .i32 [.i32 (-5), .i32 7]), (3, .map .string .i32 [])]) := by
  refine (transcode_iff .none .compact .binary ?_ ?_).mpr ?_
  · simp [WellTyped, nodes, nodesOfFields, nodesOfValues, nodesOfEntries, IsTyped, InRange, TypesOf,
      TType.isValueType, ThriftValue.type]
    rintro id value (⟨rfl, -⟩ | ⟨rfl, -⟩ | ⟨rfl, -⟩) <;> omega
  · simp [nodes, nodesOfFields, nodesOfValues, nodesOfEntries]
  · simp [Carries, nodes, nodesOfFields, nodesOfValues, nodesOfEntries]

/-- An empty map does not come from the compact protocol to JSON, and a mark is taken off. -/
theorem empty_map_and_mark_are_lost :
    (∀ read, transcode .none .compact .json 9 [(1, .map .string .i32 [])] ≠ .ok read) ∧
      transcode .none .binary .compact 9 [(1, .string "\uFEFFa")] = .ok [(1, .string "a")] := by
  constructor
  · intro read hread
    have htyped : (ThriftValue.struct [(1, .map .string .i32 [])]).WellTyped false := by
      simp [WellTyped, nodes, nodesOfFields, nodesOfEntries, IsTyped, InRange, TypesOf,
        TType.isValueType]
    have haccepts := ((transcode_eq_ok .none .compact .json htyped
      (by simp [nodes, nodesOfFields, nodesOfEntries])).mp hread).1
    refine (accepts_rewrite_iff .none .compact .json htyped).mp haccepts
      ⟨rfl, rfl, .string, .i32, ?_⟩
    simp [nodes, nodesOfFields, nodesOfEntries]
  · have htyped : (ThriftValue.struct [(1, .string "\uFEFFa")]).WellTyped false := by
      simp only [WellTyped, nodes, nodesOfFields, List.append_nil, List.forall_mem_cons, IsTyped]
      exact ⟨⟨by simp [InRange], by simp⟩, by decide, by simp⟩
    refine (transcode_eq_ok .none .binary .compact htyped
      (by simp [nodes, nodesOfFields])).mpr ⟨?_, ?_⟩
    · exact (accepts_rewrite_iff .none .binary .compact htyped).mpr (by simp)
    · rw [Laws.rewrite, Laws.rewrite, rewrite_struct, rewrite_struct]
      exact congrArg (fun s => ThriftValue.struct [(1, .string s)])
        (show "a" = dropMark (dropMark "\uFEFFa") by decide)

end Fino.Thrift
