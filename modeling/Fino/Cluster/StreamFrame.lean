import Fino.Lib.Outcome
import Fino.Lib.Wire

/-!
# Frames of a cluster stream

`encodeClusterStreamFrame`, `decodeClusterStreamFrame` and `ClusterStreamFrameReader` of
`js/internal/cluster/webtransport-framing.ts`. A stream of frames may be cut into chunks anywhere.
The reader holds back the bytes of a frame until it is complete (`Waits`), so the cuts make no
difference (`reassembles`).
-/

namespace Fino.Cluster

open Lib.Outcome Lib.Wire List

/-- `setUint32` of a `DataView`, the highest byte first. -/
def setUint32 (v : ℕ) : List UInt8 := (littleEndian 4 v).reverse

def getUint32 (bytes : List UInt8) : ℕ := ofLittleEndian (bytes.take 4).reverse

def encodeClusterStreamFrame (payload : List UInt8) : List UInt8 :=
  setUint32 payload.length ++ payload

/-- The value, and the number of bytes read. -/
def decodeClusterStreamFrame (bytes : List UInt8) : Except String (List UInt8 × ℕ) :=
  if bytes.length < 4 then .error "truncated cluster WebTransport frame length"
  else if bytes.length < 4 + getUint32 bytes then
    .error "truncated cluster WebTransport frame payload"
  else .ok ((bytes.take (4 + getUint32 bytes)).drop 4, 4 + getUint32 bytes)

/-- The bytes that have arrived and do not make up a frame yet. -/
structure ClusterStreamFrameReader where
  buffer : List UInt8

namespace ClusterStreamFrameReader

/-- The loop of `push`, for at most `fuel` turns; each takes four bytes or more. -/
def drain : ℕ → List UInt8 → Except String (List (List UInt8) × ClusterStreamFrameReader)
  | 0, buffer => .ok ([], ⟨buffer⟩)
  | fuel + 1, buffer =>
    if buffer.length < 4 ∨ buffer.length < 4 + getUint32 buffer then .ok ([], ⟨buffer⟩)
    else do
      let decoded ← decodeClusterStreamFrame (buffer.take (4 + getUint32 buffer))
      let (frames, r) ← drain fuel (buffer.drop decoded.2)
      return (decoded.1 :: frames, r)

def push (r : ClusterStreamFrameReader) (chunk : List UInt8) :
    Except String (List (List UInt8) × ClusterStreamFrameReader) :=
  if chunk = [] then .ok ([], r)
  else drain (r.buffer ++ chunk).length (r.buffer ++ chunk)

/-- The results of pushing the chunks one after the other. -/
def pushAll (r : ClusterStreamFrameReader) :
    List (List UInt8) → Except String (List (List UInt8) × ClusterStreamFrameReader)
  | [] => .ok ([], r)
  | chunk :: chunks => do
    let (frames, r) ← r.push chunk
    let (frames', r) ← pushAll r chunks
    return (frames ++ frames', r)

def assertComplete (r : ClusterStreamFrameReader) : Except String Unit :=
  if r.buffer.length ≠ 0 then .error "truncated cluster WebTransport frame at stream end"
  else .ok ()

/-! ## Reassembly -/

/-- The stream of the payloads. -/
def stream (payloads : List (List UInt8)) : List UInt8 := payloads.flatMap encodeClusterStreamFrame

/-- The reader holds the beginning of the stream, without a complete frame; the rest is to come. -/
structure Waits (r : ClusterStreamFrameReader) (payloads : List (List UInt8)) (rest : List UInt8) :
    Prop where
  stream_eq : r.buffer ++ rest = stream payloads
  incomplete : ∀ p ∈ payloads.head?, r.buffer.length < 4 + p.length

variable {p buffer rest : List UInt8} {payloads chunks : List (List UInt8)} {fuel : ℕ}
  {r : ClusterStreamFrameReader}

lemma length_setUint32 (v : ℕ) : (setUint32 v).length = 4 := by
  rw [setUint32, length_reverse, length_littleEndian]

/-- The length of the first frame is known once four bytes are there. -/
lemma getUint32_eq {l : List UInt8} (hp : p.length < 2 ^ 32) (hfour : 4 ≤ buffer.length)
    (h : buffer ++ rest = encodeClusterStreamFrame p ++ l) : getUint32 buffer = p.length := by
  rw [encodeClusterStreamFrame, append_assoc] at h
  have htake : buffer.take 4 = setUint32 p.length := by
    rw [← take_append_of_le_length hfour, h, take_left' (length_setUint32 _)]
  rw [getUint32, htake, setUint32, reverse_reverse]
  exact ofLittleEndian_littleEndian (Nat.lt_of_lt_of_eq hp (by decide))

lemma length_encodeClusterStreamFrame (p : List UInt8) :
    (encodeClusterStreamFrame p).length = 4 + p.length := by
  rw [encodeClusterStreamFrame, length_append, length_setUint32]

lemma decode_encode (hp : p.length < 2 ^ 32) :
    decodeClusterStreamFrame (encodeClusterStreamFrame p) = .ok (p, 4 + p.length) := by
  have hlength := length_encodeClusterStreamFrame p
  have hget := getUint32_eq hp (by omega) (rfl : _ ++ [] = _ ++ [])
  rw [decodeClusterStreamFrame, if_neg (by omega), hget, if_neg (by omega),
    take_of_length_le hlength.le, encodeClusterStreamFrame, drop_left' (length_setUint32 _)]

/-- The loop takes the complete frames off the front; the induction is on the payloads. -/
lemma drain_eq (hlt : ∀ p ∈ payloads, p.length < 2 ^ 32) (hfuel : buffer.length ≤ fuel)
    (h : buffer ++ rest = stream payloads) : ∃ done left r, payloads = done ++ left ∧
      drain fuel buffer = .ok (done, r) ∧ Waits r left rest := by
  induction payloads generalizing fuel buffer with
  | nil =>
    obtain ⟨rfl, rfl⟩ := append_eq_nil_iff.mp h
    exact ⟨[], [], ⟨[]⟩, rfl, by cases fuel <;> rfl, rfl, by simp⟩
  | cons p payloads ih =>
    obtain ⟨hp, hlt⟩ := forall_mem_cons.mp hlt
    rw [stream, flatMap_cons] at h
    by_cases hshort : buffer.length < 4 + p.length
    · -- The first frame is incomplete, so the loop ends at once.
      refine ⟨[], p :: payloads, ⟨buffer⟩, rfl, ?_, by rwa [stream, flatMap_cons], by simpa⟩
      cases fuel with
      | zero => rfl
      | succ fuel =>
        rw [drain, if_pos]
        by_cases hfour : buffer.length < 4
        · exact .inl hfour
        · exact .inr (by rwa [getUint32_eq hp (not_lt.mp hfour) h])
    · -- The first frame is complete, and the loop goes on behind it.
      have hget := getUint32_eq hp (by omega) h
      have hlength := length_encodeClusterStreamFrame p
      have htake : buffer.take (4 + p.length) = encodeClusterStreamFrame p := by
        rw [← take_append_of_le_length (not_lt.mp hshort), h, take_left' hlength]
      have hdrop : buffer.drop (4 + p.length) ++ rest = stream payloads := by
        rw [← drop_append_of_le_length (not_lt.mp hshort), h, drop_left' hlength, stream]
      obtain ⟨fuel, rfl⟩ := Nat.exists_eq_add_of_le' (show 1 ≤ fuel by omega)
      obtain ⟨done, left, r, rfl, hdrain, hwaits⟩ :=
        ih hlt (show _ ≤ fuel by rw [length_drop]; omega) hdrop
      refine ⟨p :: done, left, r, rfl, ?_, hwaits⟩
      rw [drain, hget, if_neg (by omega), htake, decode_encode hp]
      exact bind_eq_ok.mpr ⟨(p, _), rfl, bind_eq_ok.mpr ⟨(done, r), hdrain, rfl⟩⟩

lemma Waits.pushAll (hlt : ∀ p ∈ payloads, p.length < 2 ^ 32)
    (h : Waits r payloads (chunks.flatten ++ rest)) : ∃ done left r', payloads = done ++ left ∧
      r.pushAll chunks = .ok (done, r') ∧ Waits r' left rest := by
  induction chunks generalizing r payloads with
  | nil => exact ⟨[], payloads, r, rfl, rfl, h⟩
  | cons chunk chunks ih =>
    have hpush : ∃ done left r', payloads = done ++ left ∧ r.push chunk = .ok (done, r') ∧
        Waits r' left (chunks.flatten ++ rest) := by
      rw [push]
      split_ifs with hchunk
      · subst hchunk
        exact ⟨[], payloads, r, rfl, rfl, h⟩
      · have heq := h.stream_eq
        rw [flatten_cons, append_assoc, ← append_assoc] at heq
        exact drain_eq hlt le_rfl heq
    obtain ⟨done, left, r', rfl, hpush, hwaits⟩ := hpush
    obtain ⟨done', left', r'', rfl, hpushAll, hwaits⟩ :=
      ih (fun p hp => hlt p (mem_append_right done hp)) hwaits
    refine ⟨done ++ done', left', r'', (append_assoc ..).symm, ?_, hwaits⟩
    exact bind_eq_ok.mpr ⟨_, hpush, bind_eq_ok.mpr ⟨_, hpushAll, rfl⟩⟩

/-- Chunks of a whole stream give its payloads; chunks of a part of it that ends within a frame are
found to be incomplete. -/
theorem reassembles (payloads chunks : List (List UInt8)) (rest : List UInt8)
    (hlt : ∀ p ∈ payloads, p.length < 2 ^ 32) (h : chunks.flatten ++ rest = stream payloads) :
    ∃ frames r, pushAll ⟨[]⟩ chunks = .ok (frames, r) ∧
      (rest = [] → frames = payloads ∧ r.assertComplete = .ok ()) ∧
      ((∀ k, chunks.flatten ≠ stream (payloads.take k)) →
        r.assertComplete = .error "truncated cluster WebTransport frame at stream end") := by
  have hwaits : Waits ⟨[]⟩ payloads (chunks.flatten ++ rest) := ⟨h, by simp⟩
  obtain ⟨done, left, r, rfl, hpush, heq, hincomplete⟩ := hwaits.pushAll hlt
  refine ⟨done, r, hpush, ?_, fun hcut => if_pos fun hnil => hcut done.length ?_⟩
  · rintro rfl
    rw [append_nil] at heq
    cases left with
    | nil => exact ⟨(append_nil done).symm, if_neg (by simp [heq, stream])⟩
    | cons p left =>
      have hlength := hincomplete p rfl
      rw [heq, stream, flatMap_cons, length_append, length_encodeClusterStreamFrame] at hlength
      omega
  · rw [length_eq_zero_iff.mp hnil, nil_append] at heq
    rw [stream, flatMap_append, ← stream, ← stream, ← heq] at h
    rw [take_left, append_cancel_right h]

/-- One frame in three chunks, the second of which is empty. -/
theorem one_frame_in_three_chunks :
    ∃ frames r, pushAll ⟨[]⟩ [[0, 0], [], [0, 1, 7]] = .ok (frames, r) ∧
      frames = [[7]] ∧ r.assertComplete = .ok () := by
  obtain ⟨frames, r, hpush, hwhole, -⟩ :=
    reassembles [[7]] [[0, 0], [], [0, 1, 7]] [] (by simp) (by decide)
  exact ⟨frames, r, hpush, hwhole rfl⟩

end ClusterStreamFrameReader

end Fino.Cluster
