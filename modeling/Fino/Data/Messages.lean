import Fino.FlatBuffers.Reader
import Fino.Lib.Outcome

/-!
# Messages of an Arrow stream

`iterateMessages` of `js/data/arrow/ipc/reader.ts`. The lengths that a message gives are not
checked: with a negative length of its body the loop may come back to the same message for ever, and
`subarray` cuts a body that goes past the end. Numbers are integers; `Number` rounds only lengths
that go past the end of any input.
-/

namespace Fino.Arrow

open FlatBuffers Lib.Outcome

variable {H : Type} (decodeHeader : FlatBuffer → ℤ → TableRef → Except ReadError H)
  (bytes : FlatBuffer) (pos : ℤ)

structure MessageInfo (H : Type) where
  headerType : ℤ
  bodyLength : ℤ
  /-- Of a schema, a dictionary batch or a record batch. -/
  header : Option H

def decodeMessage : Except ReadError (MessageInfo H) := do
  let msg ← bytes.rootTable
  let headerType ← msg.int bytes .u8 1 0
  let bodyLength ← msg.int bytes .i64 3 0
  match ← msg.table bytes 2 with
  | some header =>
    if 1 ≤ headerType ∧ headerType ≤ 3 then
      return ⟨headerType, bodyLength, some (← decodeHeader bytes headerType header)⟩
    else return ⟨headerType, bodyLength, none⟩
  | none => return ⟨headerType, bodyLength, none⟩

/-- `bytes.subarray`: a negative bound is counted from the end. -/
def subarray (i j : ℤ) : List UInt8 :=
  let bound (k : ℤ) : ℕ := (if k < 0 then bytes.length + k else k).toNat
  (bytes.take (bound j)).drop (bound i)

def isFileFormat : Bool := 14 ≤ bytes.length ∧ [65, 82, 82, 79, 87, 49] <+: bytes

/-- Where the loop begins. -/
def start : ℤ := if isFileFormat bytes then 8 else 0

/-- Where the loop ends: in a file, at its footer. -/
def stop : Except ReadError ℤ :=
  if isFileFormat bytes then do
    return bytes.length - 10 - (← bytes.intAt 4 (bytes.length - 10))
  else return bytes.length

structure ParsedMessage (H : Type) where
  info : MessageInfo H
  body : List UInt8

inductive IpcError
  /-- Of a `DataView`, or a `FlatbufferError`. -/
  | read (e : ReadError)
  | expectedContinuation (offset : ℤ)

/-- One turn of the loop: the message that is yielded and the next position, or the end. -/
def next : Except IpcError (Option (ParsedMessage H × ℤ)) := do
  if (← (stop bytes).mapError .read) < pos + 8 then return none
  else if (← (bytes.uintAt 4 pos).mapError .read) ≠ 4294967295 then
    throw (.expectedContinuation pos)
  else
    let metaLen ← (bytes.intAt 4 (pos + 4)).mapError .read
    if metaLen = 0 then return none
    else
      let metaStart := pos + 8
      let info ← (decodeMessage decodeHeader
        (subarray bytes metaStart (metaStart + metaLen))).mapError .read
      let bodyStart := metaStart + metaLen
      let paddedBody := info.bodyLength + (8 - info.bodyLength.tmod 8).tmod 8
      return some (⟨info, subarray bytes bodyStart (bodyStart + info.bodyLength)⟩,
        bodyStart + paddedBody)

/-- The length of the metadata at a position, and what it says. -/
def metadata : Except ReadError (ℤ × MessageInfo H) := do
  let metaLen ← bytes.intAt 4 (pos + 4)
  return (metaLen, ← decodeMessage decodeHeader (subarray bytes (pos + 8) (pos + 8 + metaLen)))

/-- The metadata is not empty, and the body is inside the input. -/
def WellFormed : Prop :=
  ∃ metaLen info, metadata decodeHeader bytes pos = .ok (metaLen, info) ∧ 0 < metaLen ∧
    0 ≤ info.bodyLength ∧ pos + 8 + metaLen + info.bodyLength ≤ bytes.length

/-- The position moves forward, and the body is what follows the metadata inside the input. -/
def Sound (message : ParsedMessage H) (pos' : ℤ) : Prop :=
  pos < pos' ∧ ∃ metaLen bodyLength : ℕ,
    metadata decodeHeader bytes pos = .ok (↑metaLen, message.info) ∧
    message.info.bodyLength = bodyLength ∧ pos + 8 + metaLen + bodyLength ≤ bytes.length ∧
    message.body = (bytes.drop (pos + 8 + metaLen).toNat).take bodyLength

variable {decodeHeader bytes pos} {message : ParsedMessage H} {pos' : ℤ}

lemma of_next (h : next decodeHeader bytes pos = .ok (some (message, pos'))) :
    0 ≤ pos ∧ (∃ n, stop bytes = .ok n ∧ pos + 8 ≤ n) ∧
    ∃ metaLen, metaLen ≠ 0 ∧ metadata decodeHeader bytes pos = .ok (metaLen, message.info) ∧
      let bodyStart := pos + 8 + metaLen
      let bodyLength := message.info.bodyLength
      message.body = subarray bytes bodyStart (bodyStart + bodyLength) ∧
        pos' = bodyStart + (bodyLength + (8 - bodyLength.tmod 8).tmod 8) := by
  obtain ⟨n, hn, h⟩ := bind_eq_ok.mp h
  split_ifs at h with hstop
  · cases h
  obtain ⟨marker, hmarker, h⟩ := bind_eq_ok.mp h
  have hpos : 0 ≤ pos := by
    by_contra hneg
    simp [FlatBuffer.uintAt, FlatBuffer.check, lt_of_not_ge hneg, bind, Except.bind,
      Except.mapError] at hmarker
  split_ifs at h
  obtain ⟨metaLen, hmeta, h⟩ := bind_eq_ok.mp h
  split_ifs at h with hne
  · cases h
  obtain ⟨info, hinfo, h⟩ := bind_eq_ok.mp h
  cases h
  exact ⟨hpos, ⟨n, mapError_eq_ok.mp hn, not_lt.mp hstop⟩, metaLen, hne,
    bind_eq_ok.mpr ⟨_, mapError_eq_ok.mp hmeta, bind_eq_ok.mpr ⟨_, mapError_eq_ok.mp hinfo, rfl⟩⟩,
    rfl, rfl⟩

lemma sound_iff_wellFormed (h : next decodeHeader bytes pos = .ok (some (message, pos'))) :
    Sound decodeHeader bytes pos message pos' ↔ WellFormed decodeHeader bytes pos := by
  obtain ⟨hpos, -, metaLen, hne, hmetadata, hbody, rfl⟩ := of_next h
  constructor
  · rintro ⟨-, m, n, hmetadata', hn, hinside, -⟩
    cases hmetadata.symm.trans hmetadata'
    exact ⟨m, _, hmetadata', by omega, by omega, hn ▸ hinside⟩
  · rintro ⟨metaLen', info, hmetadata', hmeta, hlength, hinside⟩
    cases hmetadata.symm.trans hmetadata'
    obtain ⟨m, rfl⟩ := Int.eq_ofNat_of_zero_le hmeta.le
    obtain ⟨n, hn⟩ := Int.eq_ofNat_of_zero_le hlength
    rw [hn] at hbody hinside ⊢
    refine ⟨?_, m, n, hmetadata, hn, hinside, ?_⟩
    · rw [Int.tmod_eq_emod_of_nonneg n.cast_nonneg, Int.tmod_eq_emod_of_nonneg (by omega)]
      omega
    · rw [hbody, subarray]
      dsimp only
      rw [if_neg (by omega), if_neg (by omega), List.drop_take]
      congr 1
      omega

/-- A message is sound iff it is well-formed, and there is no endless run over such messages. -/
theorem iterateMessages_sound_iff (decodeHeader : FlatBuffer → ℤ → TableRef → Except ReadError H)
    (bytes : FlatBuffer) :
    (∀ pos message pos', next decodeHeader bytes pos = .ok (some (message, pos')) →
      (Sound decodeHeader bytes pos message pos' ↔ WellFormed decodeHeader bytes pos)) ∧
    ¬ ∃ positions : ℕ → ℤ, ∀ k, WellFormed decodeHeader bytes (positions k) ∧ ∃ message,
      next decodeHeader bytes (positions k) = .ok (some (message, positions (k + 1))) := by
  refine ⟨fun pos message pos' h => sound_iff_wellFormed h, ?_⟩
  rintro ⟨positions, hpositions⟩
  have hle : ∀ k : ℕ, k ≤ positions k := by
    intro k
    induction k with
    | zero =>
      obtain ⟨-, message, hnext⟩ := hpositions 0
      exact (of_next hnext).1
    | succ k ih =>
      obtain ⟨hwell, message, hnext⟩ := hpositions k
      have hlt := ((sound_iff_wellFormed hnext).mpr hwell).1
      omega
  obtain ⟨-, message, hnext⟩ := hpositions 0
  obtain ⟨-, ⟨n, hn, -⟩, -⟩ := of_next hnext
  obtain ⟨-, message', hnext'⟩ := hpositions n.toNat
  obtain ⟨-, ⟨n', hn', hend⟩, -⟩ := of_next hnext'
  cases hn.symm.trans hn'
  have hlast := hle n.toNat
  omega

/-- A message with metadata of 32 bytes, whose body has the length -40. -/
def endless : FlatBuffer :=
  [255, 255, 255, 255, 32, 0, 0, 0, 16, 0, 0, 0, 12, 0, 16, 0, 0, 0, 0, 0, 0, 0, 8, 0, 12, 0, 0, 0,
    0, 0, 0, 0, 216, 255, 255, 255, 255, 255, 255, 255]

/-- The message is yielded, and the position stays where it is. -/
theorem endless_stays : start endless = 0 ∧
    (next (fun _ _ _ => .ok ()) endless 0).toOption.join.map Prod.snd = some 0 := by
  decide +kernel

end Fino.Arrow
