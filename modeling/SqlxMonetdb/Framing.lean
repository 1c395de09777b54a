import Mathlib

set_option autoImplicit false

/-!
# MAPI block framing

A message is sent as blocks, each with a two byte little-endian header
`(payload_len << 1) | last_bit` in front of its payload.
-/
namespace SqlxMonetdb.Framing

def maxBlockPayload : ℕ := 8 * 1024 - 2

def encodeHeader (payloadLen : ℕ) (isLast : Bool) : UInt8 × UInt8 :=
  let header : UInt16 := (payloadLen.toUInt16 <<< 1) ||| isLast.toUInt16
  (header.toUInt8, (header >>> 8).toUInt8)

def decodeHeader (bytes : UInt8 × UInt8) : ℕ × Bool :=
  let header : UInt16 := bytes.1.toUInt16 ||| (bytes.2.toUInt16 <<< 8)
  ((header >>> 1).toNat, header &&& 1 == 1)

def headerBytes (payloadLen : ℕ) (isLast : Bool) : List UInt8 :=
  let header := encodeHeader payloadLen isLast
  [header.1, header.2]

/-- `slice::chunks`: consecutive pieces of `size` bytes, the last one shorter. -/
@[semireducible] def chunks (size : ℕ) (payload : List UInt8) : List (List UInt8) :=
  if h : payload = [] ∨ size = 0 then []
  else payload.take size :: chunks size (payload.drop size)
termination_by payload.length
decreasing_by
  obtain ⟨nonempty, positive⟩ := not_or.mp h
  have := List.length_pos_iff.mpr nonempty
  simp only [List.length_drop]
  omega

/-- The loop over the chunks; a chunk is last when none is left to peek at. -/
def encodeChunks : List (List UInt8) → List UInt8 → List UInt8
  | [], out => out
  | chunk :: rest, out =>
    encodeChunks rest (out ++ headerBytes chunk.length rest.isEmpty ++ chunk)

def encodeMessage (payload out : List UInt8) : List UInt8 :=
  if payload = [] then out ++ headerBytes 0 true
  else encodeChunks (chunks maxBlockPayload payload) out

/-- One turn of the loop of `decodeMessage`: what the block at `offset` leaves as
offset and message, and whether it is the last. -/
def decodeBlock (data : List UInt8) (offset : ℕ) (message : List UInt8) :
    Option (ℕ × List UInt8 × Bool) :=
  if data.length < offset + 2 then none
  else
    let (len, isLast) := decodeHeader (data.getD offset 0, data.getD (offset + 1) 0)
    if data.length < offset + 2 + len then none
    else some (offset + 2 + len, message ++ (data.drop (offset + 2)).take len, isLast)

theorem decodeBlock_offset {data message message' : List UInt8} {offset offset' : ℕ}
    {isLast : Bool} (h : decodeBlock data offset message = some (offset', message', isLast)) :
    offset + 2 ≤ offset' ∧ offset' ≤ data.length := by
  unfold decodeBlock at h
  split at h
  · cases h
  · dsimp only at h
    split at h
    · cases h
    · simp only [Option.some.injEq, Prod.mk.injEq] at h
      omega

@[semireducible] def decodeFrom (data : List UInt8) (offset : ℕ) (message : List UInt8) :
    Option (List UInt8 × ℕ) :=
  match h : decodeBlock data offset message with
  | none => none
  | some (offset', message', isLast) =>
    if isLast then some (message', offset') else decodeFrom data offset' message'
termination_by data.length - offset
decreasing_by
  have := decodeBlock_offset h
  omega

/-- The first message of `data` and the number of bytes it occupies; `none` when
`data` does not hold a complete message. -/
def decodeMessage (data : List UInt8) : Option (List UInt8 × ℕ) := decodeFrom data 0 []

section Headers

theorem packed_toNat {n : ℕ} (h : n < 2 ^ 15) (b : Bool) :
    (n.toUInt16 <<< 1 ||| b.toUInt16).toNat = 2 * n + b.toNat := by
  have hb : b.toNat < 2 ^ 1 := by cases b <;> decide
  have shifted : (n.toUInt16 <<< 1).toNat = 2 ^ 1 * n := by
    simp only [UInt16.toNat_shiftLeft, Nat.shiftLeft_eq]
    simp
    omega
  have bit : b.toUInt16.toNat = b.toNat := by cases b <;> rfl
  rw [UInt16.toNat_or, shifted, bit, ← Nat.two_pow_add_eq_or_of_lt hb]

theorem joined_toNat (a b : UInt8) :
    (a.toUInt16 ||| (b.toUInt16 <<< 8)).toNat = a.toNat + 256 * b.toNat := by
  have ha := a.toNat_lt
  have hb := b.toNat_lt
  have shifted : (b.toUInt16 <<< 8).toNat = 2 ^ 8 * b.toNat := by
    simp only [UInt16.toNat_shiftLeft, Nat.shiftLeft_eq]
    simp
    omega
  rw [UInt16.toNat_or, shifted, Nat.or_comm, UInt8.toNat_toUInt16,
    ← Nat.two_pow_add_eq_or_of_lt (by simpa using ha)]
  omega

theorem lastBit_eq (header : UInt16) :
    (header &&& 1 == 1) = decide (header.toNat % 2 = 1) := by
  have parity : (header &&& 1).toNat = header.toNat % 2 := by simp [UInt16.toNat_and]
  rw [Bool.eq_iff_iff, beq_iff_eq, decide_eq_true_iff, ← parity]
  constructor
  · intro h
    rw [h]
    rfl
  · intro h
    exact UInt16.toNat_inj.mp h

/-- A header is the little-endian number `2 * len + last`. -/
theorem decodeHeader_eq (a b : UInt8) :
    decodeHeader (a, b) = ((a.toNat + 256 * b.toNat) / 2, decide (a.toNat % 2 = 1)) := by
  have parity : (a.toNat + 256 * b.toNat) % 2 = a.toNat % 2 := by omega
  simp only [decodeHeader, lastBit_eq, UInt16.toNat_shiftRight, joined_toNat, parity]
  simp [Nat.shiftRight_eq_div_pow]

theorem decodeHeader_encodeHeader {n : ℕ} (h : n < 2 ^ 15) (b : Bool) :
    decodeHeader (encodeHeader n b) = (n, b) := by
  have packed := packed_toNat h b
  rw [encodeHeader, decodeHeader_eq]
  simp only [UInt16.toNat_toUInt8, UInt16.toNat_shiftRight, packed, Nat.shiftRight_eq_div_pow]
  cases b <;> simp <;> omega

@[simp] theorem headerBytes_length (n : ℕ) (b : Bool) : (headerBytes n b).length = 2 := rfl

end Headers

section Chunks

theorem chunks_nil (size : ℕ) : chunks size [] = [] := by
  simp [chunks]

theorem chunks_of_ne_nil {size : ℕ} (positive : size ≠ 0) {payload : List UInt8}
    (nonempty : payload ≠ []) :
    chunks size payload = payload.take size :: chunks size (payload.drop size) := by
  rw [chunks, dif_neg (by simp [nonempty, positive])]

theorem chunks_ne_nil (size : ℕ) (positive : size ≠ 0) {payload : List UInt8}
    (nonempty : payload ≠ []) : chunks size payload ≠ [] := by
  simp [chunks_of_ne_nil positive nonempty]

theorem chunks_flatten {size : ℕ} (positive : size ≠ 0) (payload : List UInt8) :
    (chunks size payload).flatten = payload := by
  induction payload using chunks.induct size with
  | case1 payload h =>
    have : payload = [] := h.resolve_right positive
    rw [this, chunks_nil]
    rfl
  | case2 payload h ih =>
    obtain ⟨nonempty, -⟩ := not_or.mp h
    rw [chunks_of_ne_nil positive nonempty, List.flatten_cons, ih, List.take_append_drop]

theorem length_le_of_mem_chunks {size : ℕ} {payload chunk : List UInt8}
    (mem : chunk ∈ chunks size payload) : chunk.length ≤ size := by
  induction payload using chunks.induct size with
  | case1 payload h =>
    rw [chunks, dif_pos h] at mem
    cases mem
  | case2 payload h ih =>
    rw [chunks, dif_neg h] at mem
    rcases List.mem_cons.mp mem with rfl | mem
    · simp
    · exact ih mem

end Chunks

end SqlxMonetdb.Framing
