import Fino.Data.TextDecoder
import Fino.Lib.JsonText
import Fino.Thrift.Laws

/-!
# The JSON protocol

`JSONProtocol` of `js/internal/format/thrift/json.ts`. The context is a stack of open brackets,
which says whether a comma or a colon comes next and whether a number is a key. A type is written by
its name; `STOP` has none, and the reader does not accept that.

Symbols are characters. Escapes of surrogates, malformed escapes and numbers that are not decimal
integers are not read here. How a double is written is left open.
-/

namespace Fino.Thrift.Json

open Lib List Lib.Framing Lib.JsonText Lib.Wire ThriftValue

/-! ## The model -/

def typeName : TType → Option String
  | .bool => some "tf"
  | .byte => some "i8"
  | .i16 => some "i16"
  | .i32 => some "i32"
  | .i64 => some "i64"
  | .double => some "dbl"
  | .string => some "str"
  | .struct => some "rec"
  | .map => some "map"
  | .set => some "set"
  | .list => some "lst"
  | _ => none

def nameType (name : String) : Option TType :=
  [.bool, .byte, .i16, .i32, .i64, .double, .string, .struct, .map, .set, .list].find? fun type =>
    typeName type = some name

/-- `WriteContext`, `ListWriteContext` and `PairWriteContext`, and those of the reader. -/
inductive Context
  | root
  | list (first : Bool)
  | pair (first colon : Bool)
deriving DecidableEq

namespace Context

def separator : Context → Option Char
  | root => none
  | list first => if first then none else some ','
  | pair first colon => if first then none else some (if colon then ':' else ',')

def advance : Context → Context
  | root => root
  | list _ => list false
  | pair first colon => pair false (if first then true else !colon)

def escapeNum : Context → Bool
  | root => false
  | list _ => false
  | pair _ colon => colon

end Context

/-- What is written; the context is the stack, with its top first. -/
abbrev Writing := Writer ThriftError Char (List Context) Unit

abbrev Reading (α : Type) := Reader ThriftError Char (List Context) α

/-! ### Writing -/

/-- `#ctxWrite`, and what `escapeNum` is then. -/
def ctxWrite : Writing := do
  match ← context with
  | [] => throw .noContext
  | top :: contexts =>
    emit top.separator.toList
    setContext (top.advance :: contexts)

/-- `#wtop().escapeNum()`. -/
def escapeNum (contexts : List Context) : Bool := (contexts.head?.map Context.escapeNum).getD false

/-- `#wctx.push`. -/
def push (top : Context) : Writing := do setContext (top :: (← context))

/-- `#wctx.pop`. -/
def pop : Writing := do setContext (← context).tail

def writeArrayStart : Writing := do
  ctxWrite
  emit ['[']
  push (.list true)

def writeArrayEnd : Writing := do
  pop
  emit [']']

def writeObjectStart : Writing := do
  ctxWrite
  emit ['\x7b']
  push (.pair true true)

def writeObjectEnd : Writing := do
  pop
  emit ['\x7d']

/-- A number as it stands within an array or as a key. -/
def numberText (escape : Bool) (text : List Char) : List Char :=
  if escape then '"' :: (text ++ ['"']) else text

def writeJSONInteger (text : List Char) : Writing := do
  ctxWrite
  emit (numberText (escapeNum (← context)) text)

/-- `#writeJSONString`, where nothing is written for `undefined`. -/
def writeJSONString (value : Option String) : Writing := do
  ctxWrite
  emit (value.elim [] fun value => quote value.toList)

def writeFieldBegin (type : TType) (id : ℤ) : Writing := do
  writeJSONInteger (decimal id)
  writeObjectStart
  writeJSONString (typeName type)

def writeMapBegin (keyType valueType : TType) (size : ℕ) : Writing := do
  writeArrayStart
  writeJSONString (typeName keyType)
  writeJSONString (typeName valueType)
  writeJSONInteger (decimal size)
  writeObjectStart

def writeMapEnd : Writing := do
  writeObjectEnd
  writeArrayEnd

/-- `writeListBegin`, and `writeSetBegin`. -/
def writeListBegin (elemType : TType) (size : ℕ) : Writing := do
  writeArrayStart
  writeJSONString (typeName elemType)
  writeJSONInteger (decimal size)

def writeBool (value : Bool) : Writing := writeJSONInteger (decimal (if value then 1 else 0))

/-! ### Reading -/

/-- The whitespace that `#skipWs` knows. -/
def isWhitespace (c : Char) : Bool := c = ' ' ∨ c = '\t' ∨ c = '\n' ∨ c = '\r'

def skipWs : Parser ThriftError Char Unit := fun i =>
  .ok ((), ⟨i.rest.dropWhile isWhitespace, i.offset + (i.rest.takeWhile isWhitespace).length⟩)

def ahead : Parser ThriftError Char (Option Char) := fun i => .ok (i.rest.head?, i)

def peek : Parser ThriftError Char Char := do
  skipWs
  let c ← ahead
  c.elim (throw (.json "unexpected end of JSON")) pure

/-- `#ip++`. -/
def skipOne : Parser ThriftError Char Unit := fun i => .ok ((), ⟨i.rest.tail, i.offset + 1⟩)

def expect (ch : Char) : Parser ThriftError Char Unit := do
  let c ← peek
  if c = ch then skipOne else throw (.json s!"expected '{ch}' but found '{c}'")

def consumeSeparator (sep : Char) : Parser ThriftError Char Unit := do
  skipWs
  let c ← ahead
  if c = some sep then skipOne else throw (.json s!"expected separator '{sep}'")

def ctxRead : Reading Unit := do
  match ← get with
  | [] => throw .noContext
  | top :: contexts =>
    liftM (top.separator.elim (pure ()) consumeSeparator)
    set (top.advance :: contexts)

def readArrayStart : Reading Unit := do
  ctxRead
  liftM (expect '[')
  modify (Context.list true :: ·)

def readArrayEnd : Reading Unit := do
  modify List.tail
  liftM (expect ']')

def readObjectStart : Reading Unit := do
  ctxRead
  liftM (expect '\x7b')
  modify (Context.pair true true :: ·)

def readObjectEnd : Reading Unit := do
  modify List.tail
  liftM (expect '\x7d')

/-- The characters up to one that is not of a kind. -/
def takeWhile (p : Char → Bool) : Parser ThriftError Char (List Char) := fun i =>
  .ok (i.rest.takeWhile p, ⟨i.rest.dropWhile p, i.offset + (i.rest.takeWhile p).length⟩)

def isNumeric (c : Char) : Bool :=
  c = '-' ∨ c = '+' ∨ c.isDigit = true ∨ c = '.' ∨ c = 'e' ∨ c = 'E'

def nonEmpty (token : List Char) : Parser ThriftError Char (List Char) :=
  if token = [] then throw (.json "expected a number") else return token

def readQuoted : Parser ThriftError Char (List Char) := do
  expect '"'
  let token ← takeWhile fun c => c ≠ '"'
  expect '"'
  nonEmpty token

/-- The part of `#readNumericToken` after the separator. -/
def readToken (escape : Bool) : Parser ThriftError Char (List Char) := do
  skipWs
  let c ← ahead
  if escape = true ∨ c = some '"' then readQuoted
  else nonEmpty (← takeWhile isNumeric)

def readNumericToken : Reading (List Char) := do
  ctxRead
  liftM (readToken (escapeNum (← get)))

/-- `Number` and `BigInt`, of a decimal integer. -/
def readInteger : Reading ℤ := do
  let token ← readNumericToken
  (parseDecimal token).elim (throw (.notInteger token)) pure

/-- The character that a letter after a backslash stands for. -/
def unescapeLetter (e : Char) : Option Char :=
  if e = '"' then some '"'
  else if e = '\\' then some '\\'
  else if e = '/' then some '/'
  else if e = 'b' then some (Char.ofNat 0x08)
  else if e = 'f' then some (Char.ofNat 0x0c)
  else if e = 'n' then some '\n'
  else if e = 'r' then some '\r'
  else if e = 't' then some '\t'
  else none

def hexValue (c : Char) : Option ℕ :=
  if c.isDigit = true then some (c.toNat - 0x30)
  else if 'a' ≤ c ∧ c ≤ 'f' then some (c.toNat - 0x57)
  else if 'A' ≤ c ∧ c ≤ 'F' then some (c.toNat - 0x37)
  else none

/-- The character of four hexadecimal digits, unless it is a surrogate. -/
def unescapeHex (a b c d : Char) : Option Char := do
  let n := (← hexValue a) * 0x1000 + (← hexValue b) * 0x100 + (← hexValue c) * 0x10 + (← hexValue d)
  if 0xd800 ≤ n ∧ n ≤ 0xdfff then none else some (Char.ofNat n)

/-- The loop of `#readJSONString`: the characters of the text, and what comes after it. -/
def unescape : List Char → Except ThriftError (List Char × List Char)
  | [] => .error (.json "unterminated JSON string")
  | c :: l =>
    if c = '"' then .ok ([], l)
    else if c = '\\' then
      match l with
      | [] => .error (.json "bad escape")
      | e :: l =>
        if e = 'u' then
          match l with
          | x :: y :: z :: w :: l =>
            (unescapeHex x y z w).elim (.error (.json "bad escape")) fun c =>
              (unescape l).map fun r => (c :: r.1, r.2)
          | _ => .error (.json "unterminated JSON string")
        else
          (unescapeLetter e).elim (.error (.json "bad escape")) fun c =>
            (unescape l).map fun r => (c :: r.1, r.2)
    else (unescape l).map fun r => (c :: r.1, r.2)

/-- The part of `#readJSONString` after the quote. -/
def readChars : Parser ThriftError Char String := fun i =>
  (unescape i.rest).map fun r =>
    (String.ofList r.1, ⟨r.2, i.offset + (i.rest.length - r.2.length)⟩)

def readJSONString : Reading String := do
  ctxRead
  liftM (expect '"')
  liftM readChars

def readFieldBegin : Reading FieldHeader := do
  if (← liftM peek) = '\x7d' then return ⟨.stop, 0⟩
  else do
    let id ← readInteger
    readObjectStart
    let name ← readJSONString
    (nameType name).elim (throw (.json "unknown field type code")) fun type => return ⟨type, id⟩

/-- `NAME_TYPE[name]`, which may be `undefined`. -/
def typeOfName (name : String) : TType := (nameType name).getD (.unknown none)

def readMapBegin : Reading MapHeader := do
  readArrayStart
  let keyName ← readJSONString
  let valueName ← readJSONString
  let size ← readInteger
  readObjectStart
  return ⟨typeOfName keyName, typeOfName valueName, size⟩

def readMapEnd : Reading Unit := do
  readObjectEnd
  readArrayEnd

/-- `readListBegin`, and `readSetBegin`. -/
def readListBegin : Reading ListHeader := do
  readArrayStart
  let name ← readJSONString
  let size ← readInteger
  return ⟨typeOfName name, size⟩

def readBool : Reading Bool := do return decide ((← readInteger) ≠ 0)

/-- `bytes`. -/
def encodeText (l : List Char) : List UInt8 := utf8 (String.ofList l)

/-- The text that `constructor` decodes. -/
def decodeText (bytes : List UInt8) : List Char := (TextDecoder.decode bytes).toList

/-- How doubles are written and read: `#writeJSONDouble` and `readDouble`. -/
structure Doubles where
  writeDouble : Double → Writing
  readDouble : Reading Double

variable (doubles : Doubles)

/-- `JSONProtocol`. -/
def protocol : Protocol where
  Symbol := Char
  WriteContext := List Context
  ReadContext := List Context
  initialWrite := [.root]
  initialRead := [.root]
  bytes := encodeText
  symbols := decodeText
  writeStructBegin := writeObjectStart
  writeStructEnd := writeObjectEnd
  writeFieldBegin := writeFieldBegin
  writeFieldEnd := writeObjectEnd
  writeFieldStop := pure ()
  writeMapBegin := writeMapBegin
  writeMapEnd := writeMapEnd
  writeListBegin := writeListBegin
  writeListEnd := writeArrayEnd
  writeSetBegin := writeListBegin
  writeSetEnd := writeArrayEnd
  writeBool := writeBool
  writeByte z := writeJSONInteger (decimal z)
  writeI16 z := writeJSONInteger (decimal z)
  writeI32 z := writeJSONInteger (decimal z)
  writeI64 z := writeJSONInteger (decimal z)
  writeDouble := doubles.writeDouble
  writeString value := writeJSONString (some value)
  readStructBegin := readObjectStart
  readStructEnd := readObjectEnd
  readFieldBegin := readFieldBegin
  readFieldEnd := readObjectEnd
  readMapBegin := readMapBegin
  readMapEnd := readMapEnd
  readListBegin := readListBegin
  readListEnd := readArrayEnd
  readSetBegin := readListBegin
  readSetEnd := readArrayEnd
  readBool := readBool
  readByte := readInteger
  readI16 := readInteger
  readI32 := readInteger
  readI64 := readInteger
  readDouble := doubles.readDouble
  readString := readJSONString

lemma protocol_bytes : (protocol doubles).bytes = encodeText := rfl

lemma protocol_symbols : (protocol doubles).symbols = decodeText := rfl

/-! ## Tokens -/

open Lib.Parser

variable {c : Char} {l : List Char}

section

variable (hc : isWhitespace c = false)

include hc

variable (l : List Char)

lemma skipWs_of_head (k : ℕ) : skipWs ⟨c :: l, k⟩ = .ok ((), ⟨c :: l, k⟩) := by
  simp [skipWs, hc]

lemma peek_of_head (k : ℕ) : peek ⟨c :: l, k⟩ = .ok (c, ⟨c :: l, k⟩) :=
  bind_eq_ok.mpr ⟨(), _, skipWs_of_head hc l k, rfl⟩

lemma lift_peek (k : ℕ) (d : List Context) :
    (liftM peek : Reading Char) d ⟨c :: l, k⟩ = .ok ((c, d), ⟨c :: l, k⟩) := by
  show (peek ⟨c :: l, k⟩).bind _ = _
  rw [peek_of_head hc]
  rfl

lemma parses_expect : Parses (expect c) [c] () := by
  intro m k
  refine bind_eq_ok.mpr ⟨c, _, peek_of_head hc m k, ?_⟩
  rw [if_pos rfl]
  rfl

lemma expect_error {ch : Char} (hne : c ≠ ch) (l : List Char)
    (k : ℕ) : ∃ e, expect ch ⟨c :: l, k⟩ = .error e := by
  refine ⟨.json s!"expected '{ch}' but found '{c}'", ?_⟩
  show (peek ⟨c :: l, k⟩).bind _ = _
  rw [peek_of_head hc]
  show (if c = ch then skipOne else throw _) _ = _
  rw [if_neg hne]
  rfl

lemma parses_consumeSeparator : Parses (consumeSeparator c) [c] () := by
  intro m k
  refine bind_eq_ok.mpr ⟨(), _, skipWs_of_head hc m k, ?_⟩
  refine bind_eq_ok.mpr ⟨some c, ⟨c :: m, k⟩, rfl, ?_⟩
  rw [if_pos rfl]
  rfl

end

/-- What may stand after a number: not the characters of one. -/
def Follows (rest : List Char) : Prop := ∀ c, rest.head? = some c → isNumeric c = false

lemma follows_cons (hc : isNumeric c = false) (l : List Char) : Follows (c :: l) := by
  intro c' hc'
  cases hc'
  exact hc

lemma takeWhile_append {p : Char → Bool} {m : List Char} (h : ∀ c ∈ l, p c)
    (hm : ∀ c, m.head? = some c → p c = false) (k : ℕ) :
    takeWhile p ⟨l ++ m, k⟩ = .ok (l, ⟨m, k + l.length⟩) := by
  have htake : (l ++ m).takeWhile p = l := by
    rw [takeWhile_append_of_pos h]
    cases m with
    | nil => simp
    | cons c m => simp [hm c rfl]
  have hdrop : (l ++ m).dropWhile p = m := by
    rw [dropWhile_append_of_pos h]
    cases m with
    | nil => rfl
    | cons c m => simp [hm c rfl]
  rw [takeWhile, htake, hdrop]

lemma isNumeric_of_mem_decimal {z : ℤ} (h : c ∈ decimal z) :
    isNumeric c ∧ c ≠ '"' ∧ isWhitespace c = false := by
  rcases isDigit_of_mem_decimal h with rfl | hdigit
  · decide
  · refine ⟨by simp [isNumeric, hdigit], ?_, ?_⟩
    · rintro rfl
      exact absurd hdigit (by decide)
    · by_contra hws
      simp only [isWhitespace, Bool.not_eq_false, decide_eq_true_eq] at hws
      rcases hws with rfl | rfl | rfl | rfl <;> exact absurd hdigit (by decide)

lemma parses_readQuoted {token : List Char} (hne : token ≠ []) (h : ∀ c ∈ token, c ≠ '"') :
    Parses readQuoted ('"' :: (token ++ ['"'])) token := by
  intro m k
  refine bind_eq_ok.mpr ⟨(), _, parses_expect (c := '"') rfl _ k, ?_⟩
  have htake := takeWhile_append (p := fun c => c ≠ '"') (l := token) (m := '"' :: m)
    (fun c hc => by simpa using h c hc) (by simp) (k + 1)
  rw [show (token ++ ['"']).append m = token ++ '"' :: m from append_assoc token ['"'] m]
  refine bind_eq_ok.mpr ⟨token, _, htake, ?_⟩
  refine bind_eq_ok.mpr ⟨(), _, parses_expect (c := '"') rfl m _, ?_⟩
  rw [nonEmpty, if_neg hne]
  show Except.ok _ = Except.ok _
  simp only [length_cons, length_append, length_nil]
  congr 3
  omega

lemma readToken_numberText (escape : Bool) (z : ℤ) {rest : List Char} (hrest : Follows rest)
    (k : ℕ) : readToken escape ⟨numberText escape (decimal z) ++ rest, k⟩ =
      .ok (decimal z, ⟨rest, k + (numberText escape (decimal z)).length⟩) := by
  cases escape with
  | true =>
    refine bind_eq_ok.mpr ⟨(), _, skipWs_of_head (c := '"') rfl _ k, ?_⟩
    refine bind_eq_ok.mpr ⟨some '"', _, rfl, ?_⟩
    exact parses_readQuoted (decimal_ne_nil z)
      (fun c hc => (isNumeric_of_mem_decimal hc).2.1) rest k
  | false =>
    obtain ⟨c, l, hl⟩ := exists_cons_of_ne_nil (decimal_ne_nil z)
    obtain ⟨-, hquote, hws⟩ := isNumeric_of_mem_decimal (show c ∈ decimal z by simp [hl])
    have htake := takeWhile_append (fun c hc => (isNumeric_of_mem_decimal (z := z) hc).1) hrest k
    refine bind_eq_ok.mpr ⟨(), ⟨decimal z ++ rest, k⟩, ?_, ?_⟩
    · rw [hl]
      exact skipWs_of_head hws _ k
    · refine bind_eq_ok.mpr ⟨some c, ⟨decimal z ++ rest, k⟩, by rw [hl]; rfl, ?_⟩
      rw [if_neg (by simp [hquote])]
      refine bind_eq_ok.mpr ⟨decimal z, _, htake, ?_⟩
      rw [nonEmpty, if_neg (decimal_ne_nil z)]
      rfl

lemma hexValue_digitChar : ∀ n < 0x10, hexValue (Nat.digitChar n) = some n := by
  decide

lemma unescapeLetter_of_shortEscape {e : Char} (h : shortEscape c = some e) :
    unescapeLetter e = some c ∧ e ≠ 'u' := by
  unfold shortEscape at h
  split_ifs at h <;> cases h <;> subst c <;> decide

lemma ne_of_shortEscape (h : shortEscape c = none) : c ≠ '"' ∧ c ≠ '\\' := by
  constructor <;> rintro rfl <;> cases h

lemma unescape_quote (l : List Char) : unescape ('"' :: l) = .ok ([], l) := by
  rw [unescape.eq_def]
  rfl

lemma unescape_letter {e : Char} (he : e ≠ 'u') (hc : unescapeLetter e = some c) (l : List Char) :
    unescape ('\\' :: e :: l) = (unescape l).map fun r => (c :: r.1, r.2) := by
  rw [unescape.eq_def]
  dsimp only
  rw [if_neg (by decide), if_pos rfl, if_neg he, hc]
  rfl

lemma unescape_escapeChar (c : Char) (l : List Char) :
    unescape (escapeChar c ++ l) = (unescape l).map fun r => (c :: r.1, r.2) := by
  cases h : shortEscape c with
  | some e =>
    obtain ⟨hletter, he⟩ := unescapeLetter_of_shortEscape h
    rw [escapeChar, h]
    exact unescape_letter he hletter l
  | none =>
    obtain ⟨hquote, hbackslash⟩ := ne_of_shortEscape h
    rw [escapeChar, h, Option.elim_none]
    split_ifs with hcontrol
    · have hhex : unescapeHex '0' '0' (Nat.digitChar (c.toNat / 0x10))
          (Nat.digitChar (c.toNat % 0x10)) = some c := by
        have hsum : 0 * 0x1000 + 0 * 0x100 + c.toNat / 0x10 * 0x10 + c.toNat % 0x10 = c.toNat := by
          omega
        simp only [unescapeHex, hexValue_digitChar _ (show c.toNat / 0x10 < 0x10 by omega),
          hexValue_digitChar _ (Nat.mod_lt c.toNat (by decide)),
          show hexValue '0' = some 0 from rfl, Option.bind_eq_bind, Option.bind_some, hsum,
          Char.ofNat_toNat]
        rw [if_neg (by omega)]
      show unescape ('\\' :: 'u' :: '0' :: '0' :: _ :: _ :: l) = _
      rw [unescape.eq_def]
      dsimp only
      rw [if_neg (by decide), if_pos rfl, if_pos rfl, hhex]
      rfl
    · show unescape (c :: l) = _
      rw [unescape.eq_def]
      dsimp only
      rw [if_neg hquote, if_neg hbackslash]

lemma unescape_flatMap (s rest : List Char) :
    unescape (s.flatMap escapeChar ++ '"' :: rest) = .ok (s, rest) := by
  induction s with
  | nil => exact unescape_quote rest
  | cons c s ih =>
    rw [flatMap_cons, append_assoc, unescape_escapeChar, ih]
    rfl

lemma parses_readChars (s : String) :
    Parses readChars (s.toList.flatMap escapeChar ++ ['"']) s := by
  intro m k
  have hlist : s.toList.flatMap escapeChar ++ ['"'] ++ m =
      s.toList.flatMap escapeChar ++ '"' :: m := by rw [append_assoc]; rfl
  have hlength : (s.toList.flatMap escapeChar ++ '"' :: m).length - m.length =
      (s.toList.flatMap escapeChar ++ ['"']).length := by
    simp only [length_append, length_cons, length_nil]
    omega
  rw [hlist, readChars, unescape_flatMap]
  simp only [Except.map, String.ofList_toList, hlength]

/-! ## Items -/

/-- A number may be the next item: there is a separator before it, or it is a key. -/
def Context.Settled : Context → Prop
  | .root => False
  | .list first => first = false
  | .pair _ _ => True

lemma settled_list : (Context.list false).Settled := rfl

variable {top : Context}

lemma Context.Settled.advance (h : top.Settled) : top.advance.Settled := by
  cases top with
  | root => exact h
  | list first => rfl
  | pair first colon => trivial

lemma separator_eq (h : top.separator = some c) : c = ',' ∨ c = ':' := by
  cases top with
  | root => cases h
  | list first =>
    cases first with
    | false => exact .inl (Option.some.inj h).symm
    | true => cases h
  | pair first colon =>
    cases first with
    | false =>
      cases colon with
      | false => exact .inl (Option.some.inj h).symm
      | true => exact .inr (Option.some.inj h).symm
    | true => cases h

lemma writes_ctxWrite (top : Context) (key : List Context) :
    Writes ctxWrite (top :: key) top.separator.toList (top.advance :: key) :=
  fun _ => rfl

lemma parses_separator (top : Context) :
    Parses (top.separator.elim (pure ()) consumeSeparator) top.separator.toList () := by
  cases h : top.separator with
  | none => exact parses_pure ()
  | some c =>
    refine parses_consumeSeparator ?_
    rcases separator_eq h with rfl | rfl <;> rfl

lemma takes_ctxRead (top : Context) (key : List Context) (rest : List Char) :
    Takes ctxRead (top :: key) top.separator.toList rest () (top.advance :: key) := by
  intro k
  refine bind_eq_ok.mpr ⟨top :: key, top :: key, _, rfl, ?_⟩
  exact bind_eq_ok.mpr ⟨(), _, _, takes_lift (parses_separator top) _ rest k, rfl⟩

lemma follows_separator (h : top.separator ≠ none ∨ Follows l) :
    Follows (top.separator.toList ++ l) := by
  cases hsep : top.separator with
  | none => exact h.resolve_left fun h => h hsep
  | some c =>
    refine follows_cons ?_ l
    rcases separator_eq hsep with rfl | rfl <;> decide

lemma moves_item {α : Type} {key c' d' : List Context} {w : Writing} {r : Reading α} {a : α}
    (body : List Char) (hw : Writes w (top.advance :: key) body c')
    (hr : ∀ rest, Follows rest → Takes r (top.advance :: key) body rest a d')
    (hfollows : ∀ rest, top.separator ≠ none ∨ Follows (body ++ rest)) :
    Moves Follows (top :: key) (top :: key) c' d' (do ctxWrite; w) (do ctxRead; r) (some a) := by
  refine ⟨top.separator.toList ++ body, (writes_ctxWrite top key).bind hw, fun rest hrest => ?_⟩
  refine ⟨?_, (takes_ctxRead top key (body ++ rest)).bind (hr rest hrest)⟩
  rw [append_assoc]
  exact follows_separator (hfollows rest)

lemma moves_string (top : Context) (key : List Context) (value : String) :
    Moves Follows (top :: key) (top :: key) (top.advance :: key) (top.advance :: key)
      (writeJSONString (some value)) readJSONString (some value) := by
  refine moves_item (quote value.toList) (writes_emit _ _) (fun rest _ => ?_)
    fun rest => .inr (follows_cons (by decide) _)
  exact (takes_lift (parses_expect (c := '"') rfl) _ _).bind
    (takes_lift (parses_readChars value) _ _)

lemma Context.Settled.escapeNum (h : top.Settled) :
    top.separator ≠ none ∨ top.advance.escapeNum := by
  cases top with
  | root => exact h.elim
  | list first =>
    subst h
    exact .inl (by simp [separator])
  | pair first colon =>
    cases first with
    | false => exact .inl (by simp [separator])
    | true => exact .inr rfl

lemma writes_integer (top : Context) (key : List Context) (z : ℤ) :
    Writes (writeJSONInteger (decimal z)) (top :: key)
      (top.separator.toList ++ numberText top.advance.escapeNum (decimal z))
      (top.advance :: key) :=
  (writes_ctxWrite top key).bind (Writes.of_context (writes_emit _ _))

lemma moves_integer (htop : top.Settled) (key : List Context) (z : ℤ) :
    Moves Follows (top :: key) (top :: key) (top.advance :: key) (top.advance :: key)
      (writeJSONInteger (decimal z)) readInteger (some z) := by
  have htoken : Moves Follows (top :: key) (top :: key) (top.advance :: key) (top.advance :: key)
      (writeJSONInteger (decimal z)) readNumericToken (some (decimal z)) := by
    refine moves_item (numberText top.advance.escapeNum (decimal z))
      (Writes.of_context (writes_emit _ _)) (fun rest hrest k => ?_) fun rest => ?_
    · refine bind_eq_ok.mpr ⟨top.advance :: key, top.advance :: key, _, rfl, ?_⟩
      show (readToken top.advance.escapeNum _).bind _ = _
      rw [readToken_numberText _ _ hrest]
      rfl
    · refine htop.escapeNum.imp_right fun hescape => ?_
      rw [hescape]
      exact follows_cons (by decide) _
  exact htoken.bind_pure (by rw [parseDecimal_decimal]; rfl)

section

variable (top : Context) (key : List Context)

lemma moves_arrayStart :
    Moves Follows (top :: key) (top :: key) (.list true :: top.advance :: key)
      (.list true :: top.advance :: key) writeArrayStart readArrayStart (some ()) := by
  refine moves_item ['['] (fun _ => rfl) (fun rest _ => ?_)
    fun rest => .inr (follows_cons (by decide) _)
  exact (takes_lift (parses_expect (c := '[') rfl) _ _).bind (fun _ => rfl)

lemma moves_objectStart :
    Moves Follows (top :: key) (top :: key) (.pair true true :: top.advance :: key)
      (.pair true true :: top.advance :: key) writeObjectStart readObjectStart (some ()) := by
  refine moves_item ['\x7b'] (fun _ => rfl) (fun rest _ => ?_)
    fun rest => .inr (follows_cons (by decide) _)
  exact (takes_lift (parses_expect (c := '\x7b') rfl) _ _).bind (fun _ => rfl)

lemma moves_arrayEnd :
    Moves Follows (top :: key) (top :: key) key key writeArrayEnd readArrayEnd (some ()) :=
  ⟨[']'], fun _ => rfl, fun rest _ => ⟨follows_cons (by decide) _,
    fun k => bind_eq_ok.mpr ⟨(), key, _, rfl,
      takes_lift (parses_expect (c := ']') rfl) key rest k⟩⟩⟩

lemma moves_objectEnd :
    Moves Follows (top :: key) (top :: key) key key writeObjectEnd readObjectEnd (some ()) :=
  ⟨['\x7d'], fun _ => rfl, fun rest _ => ⟨follows_cons (by decide) _,
    fun k => bind_eq_ok.mpr ⟨(), key, _, rfl,
      takes_lift (parses_expect (c := '\x7d') rfl) key rest k⟩⟩⟩

end

/-! ## The laws -/

/-- The contexts are the same, with a number possibly next, and those around are kept. -/
def frame : Frame Char (List Context) (List Context) (List Context) where
  Related key c d := ∃ top, top.Settled ∧ c = top :: key ∧ d = top :: key
  Follows := Follows

lemma keeps_integer (z : ℤ) :
    frame.Keeps (writeJSONInteger (decimal z)) readInteger (some z) := by
  rintro key _ _ ⟨top, htop, rfl, rfl⟩
  exact ⟨_, _, ⟨_, htop.advance, rfl, rfl⟩, moves_integer htop key z⟩

lemma keeps_string (value : String) :
    frame.Keeps (writeJSONString (some value)) readJSONString (some value) := by
  rintro key _ _ ⟨top, htop, rfl, rfl⟩
  exact ⟨_, _, ⟨_, htop.advance, rfl, rfl⟩, moves_string top key value⟩

lemma keeps_bool (value : Bool) : frame.Keeps (writeBool value) readBool (some value) := by
  have hkeeps := (keeps_integer (if value then 1 else 0)).map fun z => decide (z ≠ 0)
  cases value <;> exact hkeeps

variable {type : TType}

lemma exists_typeName (h : type.isValueType) :
    ∃ name, typeName type = some name ∧ nameType name = some type := by
  cases type with
  | stop => cases h
  | void => cases h
  | unknown => cases h
  | _ => exact ⟨_, rfl, by decide⟩

variable {doubles : Doubles}

lemma opens_struct {R : List Context → List Context → Prop}
    (h : ∀ c d, R c d → ∃ top key, c = top :: key ∧ d = top :: key ∧
      R (top.advance :: key) (top.advance :: key)) :
    frame.Opens R (protocol doubles).writeStructBegin (protocol doubles).readStructBegin (some ())
      (protocol doubles).endStruct (protocol doubles).endedStruct (⟨.stop, 0⟩, ()) := by
  intro c d hR
  obtain ⟨top, key, rfl, rfl, hR'⟩ := h c d hR
  refine ⟨top.advance :: key, _, _, ⟨.pair true true, trivial, rfl, rfl⟩,
    moves_objectStart top key, ?_⟩
  rintro _ _ ⟨top', htop', rfl, rfl⟩
  refine ⟨_, _, hR', ['\x7d'], fun _ => rfl,
    fun rest _ => ⟨follows_cons (by decide) _, fun k => ?_⟩⟩
  -- The end of the object is seen before it is read.
  have hfield : readFieldBegin (top' :: top.advance :: key) ⟨'\x7d' :: rest, k⟩ =
      .ok ((⟨.stop, 0⟩, top' :: top.advance :: key), ⟨'\x7d' :: rest, k⟩) :=
    bind_eq_ok.mpr ⟨_, _, _, lift_peek (c := '\x7d') rfl _ _ _, rfl⟩
  have hend : readObjectEnd (top' :: top.advance :: key) ⟨'\x7d' :: rest, k⟩ =
      .ok (((), top.advance :: key), ⟨rest, k + 1⟩) :=
    bind_eq_ok.mpr ⟨(), top.advance :: key, _, rfl,
      takes_lift (parses_expect (c := '\x7d') rfl) _ rest k⟩
  exact bind_eq_ok.mpr ⟨_, _, _, hfield, bind_eq_ok.mpr ⟨_, _, _, hend, rfl⟩⟩

lemma exists_head_integer (htop : top.Settled) (z : ℤ) :
    ∃ c l, top.separator.toList ++ numberText top.advance.escapeNum (decimal z) = c :: l ∧
      isWhitespace c = false ∧ c ≠ '\x7d' := by
  cases hsep : top.separator with
  | some c =>
    refine ⟨c, _, rfl, ?_⟩
    rcases separator_eq hsep with rfl | rfl <;> decide
  | none =>
    rw [htop.escapeNum.resolve_left fun h => h hsep]
    exact ⟨'"', _, rfl, by decide⟩

lemma moves_fieldBegin (htop : top.Settled) (key : List Context) (h : type.isValueType)
    (id : ℤ) :
    Moves Follows (top :: key) (top :: key) (.pair false true :: top.advance.advance :: key)
      (.pair false true :: top.advance.advance :: key) (writeFieldBegin type id) readFieldBegin
      (some ⟨type, id⟩) := by
  obtain ⟨name, hname, htype⟩ := exists_typeName h
  have hname' := (moves_string (.pair true true) (top.advance.advance :: key) name).bind_pure
    (f := fun name => (nameType name).elim (throw (.json "unknown field type code")) fun type =>
      return (⟨type, id⟩ : FieldHeader)) (b := ⟨type, id⟩) (by rw [htype]; rfl)
  rw [← hname] at hname'
  have htail := (moves_objectStart top.advance key).bind_some (f := fun _ => do
    let name ← readJSONString
    (nameType name).elim (throw (.json "unknown field type code")) fun type =>
      return (⟨type, id⟩ : FieldHeader)) hname'
  have hall := (moves_integer htop key id).bind_some htail (f := fun id => do
    readObjectStart
    let name ← readJSONString
    (nameType name).elim (throw (.json "unknown field type code")) fun type =>
      return (⟨type, id⟩ : FieldHeader))
  obtain ⟨c, m, hm, hws, hc⟩ := exists_head_integer htop id
  obtain ⟨l', hl'⟩ := htail.writes
  obtain ⟨l, hl, hrest⟩ := hall
  have hlist : l = c :: (m ++ l') := by
    rw [hl.unique ((writes_integer top key id).bind hl'), hm, cons_append]
  refine ⟨l, hl, fun rest hfollows => ⟨(hrest rest hfollows).1, fun k => ?_⟩⟩
  have hrun := (hrest rest hfollows).2 k
  rw [hlist] at hrun ⊢
  refine bind_eq_ok.mpr ⟨c, _, _, lift_peek hws _ _ _, ?_⟩
  rw [if_neg hc]
  exact hrun

lemma encloses_field {id : ℤ} (h : type.isValueType) :
    frame.Encloses (writeFieldBegin type id) readFieldBegin (some ⟨type, id⟩) writeObjectEnd
      readObjectEnd () := by
  rintro key _ _ ⟨top, htop, rfl, rfl⟩
  refine ⟨top.advance.advance :: key, _, _, ⟨.pair false true, trivial, rfl, rfl⟩,
    moves_fieldBegin htop key h id, ?_⟩
  rintro _ _ ⟨top', -, rfl, rfl⟩
  exact ⟨_, _, ⟨_, htop.advance.advance, rfl, rfl⟩, moves_objectEnd top' _⟩

lemma typeOfName_eq {name : String} (h : nameType name = some type) : typeOfName name = type := by
  rw [typeOfName, h, Option.getD_some]

lemma encloses_list {elemType : TType} (size : ℕ) (h : elemType.isValueType) :
    frame.Encloses (writeListBegin elemType size) readListBegin (some ⟨elemType, size⟩)
      writeArrayEnd readArrayEnd () := by
  obtain ⟨name, hname, htype⟩ := exists_typeName h
  rintro key _ _ ⟨top, htop, rfl, rfl⟩
  refine ⟨top.advance :: key, _, _, ⟨.list false, rfl, rfl, rfl⟩, ?_, ?_⟩
  · have hsize := (moves_integer settled_list (top.advance :: key) size).map
      fun size => (⟨typeOfName name, size⟩ : ListHeader)
    rw [writeListBegin, hname]
    rw [typeOfName_eq htype] at hsize
    refine (moves_arrayStart top key).bind_some ((moves_string (.list true) _ name).bind_some ?_)
    rw [typeOfName_eq htype]
    exact hsize
  · rintro _ _ ⟨top', -, rfl, rfl⟩
    exact ⟨_, _, ⟨_, htop.advance, rfl, rfl⟩, moves_arrayEnd top' _⟩

lemma closes_map {key : List Context} (htop : top.Settled) :
    ∀ c d, frame.Related (.list false :: top.advance :: key) c d → ∃ c' d',
      frame.Related key c' d' ∧ Moves Follows c d c' d' writeMapEnd readMapEnd (some ()) := by
  rintro _ _ ⟨top', -, rfl, rfl⟩
  exact ⟨_, _, ⟨_, htop.advance, rfl, rfl⟩,
    (moves_objectEnd top' _).bind_some (moves_arrayEnd (.list false) _)⟩

lemma encloses_map {keyType valueType : TType} (size : ℕ) (h : keyType.isValueType)
    (h' : valueType.isValueType) :
    frame.Encloses (writeMapBegin keyType valueType size) readMapBegin
      (some ⟨keyType, valueType, size⟩) writeMapEnd readMapEnd () := by
  obtain ⟨keyName, hkeyName, hkeyType⟩ := exists_typeName h
  obtain ⟨valueName, hvalueName, hvalueType⟩ := exists_typeName h'
  rintro key _ _ ⟨top, htop, rfl, rfl⟩
  refine ⟨.list false :: top.advance :: key, _, _, ⟨.pair true true, trivial, rfl, rfl⟩, ?_,
    closes_map htop⟩
  rw [writeMapBegin, hkeyName, hvalueName]
  refine (moves_arrayStart top key).bind_some ((moves_string (.list true) _ keyName).bind_some
    ((moves_string (.list false) _ valueName).bind_some
      ((moves_integer settled_list _ size).bind_some
        ((moves_objectStart (.list false) _).bind_pure ?_))))
  rw [typeOfName_eq hkeyType, typeOfName_eq hvalueType]

lemma fails_readJSONString (key : List Context) (rest : List Char) :
    Fails readJSONString (.list true :: key) (',' :: rest) := by
  refine (takes_ctxRead (.list true) key (',' :: rest)).bind_fails (Fails.bind ?_)
  exact fails_lift (expect_error (c := ',') rfl (by decide) rest) _

lemma encloses_map_stop :
    frame.Encloses (writeMapBegin .stop .stop 0) readMapBegin none writeMapEnd readMapEnd () := by
  rintro key _ _ ⟨top, htop, rfl, rfl⟩
  refine ⟨.list false :: top.advance :: key, _, _, ⟨.pair true true, trivial, rfl, rfl⟩, ?_,
    closes_map htop⟩
  obtain ⟨l₀, hl₀, hrest⟩ := moves_arrayStart top key
  have hname (top : Context) (key : List Context) : Writes (writeJSONString none) (top :: key)
      top.separator.toList (top.advance :: key) := by
    rw [← append_nil top.separator.toList]
    exact (writes_ctxWrite top key).bind (writes_emit [] _)
  obtain ⟨l₁, hl₁⟩ := (moves_objectStart (.list false) (top.advance :: key)).writes
  refine ⟨_, hl₀.bind ((hname (.list true) _).bind ((hname (.list false) _).bind
    ((writes_integer (.list false) _ 0).bind hl₁))), fun rest => ?_⟩
  rw [append_assoc]
  obtain ⟨hfollows, htakes⟩ := hrest (',' :: _) (follows_cons (by decide) _)
  exact ⟨hfollows, htakes.bind_fails (fails_readJSONString _ _).bind⟩

lemma decodeText_encodeText {c : List Context} (l' : List Char)
    (h : Writes writeObjectStart [.root] l c) : decodeText (encodeText (l ++ l')) = l ++ l' := by
  have hbegin : Writes writeObjectStart [.root] ['\x7b'] [.pair true true, .root] :=
    (writes_ctxWrite .root []).bind fun _ => rfl
  have hmark : ¬ IsMarked (String.ofList ('\x7b' :: l')) := by
    rw [IsMarked, String.toList_ofList, List.head?_cons]
    decide
  rw [decodeText, encodeText, h.unique hbegin, singleton_append, TextDecoder.decode_utf8,
    dropMark_eq_self.mpr hmark, String.toList_ofList]

def laws (doubles : Doubles) : Laws (protocol doubles) where
  Key := List Context
  frame := frame
  text := id
  emptyMap keyType valueType :=
    if keyType.isValueType = true ∧ valueType.isValueType = true then some (keyType, valueType)
    else none
  length_text _ := Nat.le_refl _
  emptyMap_typed h htypes := by
    split_ifs at h
    cases h
    exact htypes
  follows_nil := by
    rintro c ⟨⟩
  symbols_bytes _ _ l' h := by
    rw [protocol_symbols, protocol_bytes]
    exact decodeText_encodeText l' h
  root := opens_struct fun _ _ h => ⟨.root, [], h.1, h.2, rfl, rfl⟩
  struct key := opens_struct fun _ _ ⟨top, htop, hc, hd⟩ =>
    ⟨top, key, hc, hd, top.advance, htop.advance, rfl, rfl⟩
  field h _ _ := encloses_field h
  boolField value _ := keeps_boolField (encloses_field rfl) (keeps_bool value)
  list h _ := encloses_list _ h
  set h _ := encloses_list _ h
  map h h' _ _ := encloses_map _ h h'
  mapOfNone htypes := by
    rcases htypes with ⟨h, h'⟩ | ⟨-, -, rfl, rfl⟩
    · rw [if_pos ⟨h, h'⟩]
      exact encloses_map 0 h h'
    · exact encloses_map_stop
  bool := keeps_bool
  byte _ := keeps_integer _
  i16 _ := keeps_integer _
  i32 _ := keeps_integer _
  i64 _ := keeps_integer _
  string _ := keeps_string _

end Fino.Thrift.Json
