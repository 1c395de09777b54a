import SqlxMonetdb.FramingPrefixes

set_option autoImplicit false

namespace SqlxMonetdb.CanonicalBlocks
open Framing FramingPrefixes

section Cuts

structure Cut (size : ℕ) (payload : List UInt8) (full : List (List UInt8)) (last : List UInt8) :
    Prop where
  content : full.flatten ++ last = payload
  filled : ∀ chunk ∈ full, chunk.length = size
  short : last.length ≤ size
  nonempty : last = [] → payload = []

variable {size : ℕ} {payload last : List UInt8} {full : List (List UInt8)}

theorem exists_cut (positive : size ≠ 0) (payload : List UInt8) :
    ∃ full last, Cut size payload full last := by
  induction payload using chunks.induct size with
  | case1 payload h =>
    obtain rfl : payload = [] := h.resolve_right positive
    exact ⟨[], [], rfl, by simp, Nat.zero_le _, fun _ => rfl⟩
  | case2 payload h ih =>
    by_cases one : payload.length ≤ size
    · exact ⟨[], payload, rfl, by simp, one, id⟩
    · obtain ⟨full, last, cut⟩ := ih
      refine ⟨payload.take size :: full, last, ?_, ?_, cut.short, fun none => ?_⟩
      · rw [List.flatten_cons, List.append_assoc, cut.content, List.take_append_drop]
      · rw [List.forall_mem_cons]
        exact ⟨List.length_take_of_le (by omega), cut.filled⟩
      · have rest := congrArg List.length (cut.nonempty none)
        rw [List.length_drop, List.length_nil] at rest
        omega

theorem chunks_of_cut (positive : size ≠ 0) (cut : Cut size payload full last)
    (nonempty : payload ≠ []) : chunks size payload = full ++ [last] := by
  induction full generalizing payload with
  | nil =>
    have whole : last = payload := cut.content
    subst whole
    rw [chunks_of_ne_nil positive nonempty, List.take_of_length_le cut.short,
      List.drop_of_length_le cut.short, chunks_nil]
    rfl
  | cons chunk full ih =>
    have filled : chunk.length = size := cut.filled chunk (by simp)
    have content : payload = chunk ++ (full.flatten ++ last) := by
      rw [← cut.content, List.flatten_cons, List.append_assoc]
    have some_left : last ≠ [] := fun none => nonempty (cut.nonempty none)
    have tail : Cut size (full.flatten ++ last) full last :=
      ⟨rfl, fun c mem => cut.filled c (by simp [mem]), cut.short, fun none => absurd none some_left⟩
    rw [chunks_of_ne_nil positive nonempty, content, List.take_left' filled, List.drop_left' filled,
      ih tail (by simp [some_left]), List.cons_append]

theorem Cut.length (cut : Cut size payload full last) :
    payload.length = size * full.length + last.length := by
  have same : full.map List.length = List.replicate full.length size :=
    List.eq_replicate_iff.mpr ⟨by simp, by simpa using cut.filled⟩
  rw [← cut.content, List.length_append, List.length_flatten, same, List.sum_replicate,
    smul_eq_mul, Nat.mul_comm]

theorem Cut.number (positive : size ≠ 0) (cut : Cut size payload full last) :
    full.length + 1 = max 1 (payload.length ⌈/⌉ size) := by
  have length := cut.length
  have short := cut.short
  have some_size : 0 < size := Nat.pos_of_ne_zero positive
  have enough : payload.length ≤ size * (full.length + 1) := by
    rw [length, Nat.mul_succ]
    omega
  by_cases none : last = []
  · have empty : full.length = 0 := by
      rw [cut.nonempty none, none, List.length_nil, Nat.add_zero] at length
      exact (Nat.mul_eq_zero.mp length.symm).resolve_left positive
    rw [empty, cut.nonempty none, List.length_nil, zero_ceilDiv]
    rfl
  · have more : ¬ payload.length ≤ size * full.length := by
      have some_left := List.length_pos_iff.mpr none
      omega
    have below : payload.length ⌈/⌉ size ≤ full.length + 1 :=
      (ceilDiv_le_iff_le_mul some_size).mpr enough
    have above : ¬ payload.length ⌈/⌉ size ≤ full.length :=
      fun few => more ((ceilDiv_le_iff_le_mul some_size).mp few)
    omega

end Cuts

section Blocks

/-- The blocks of a payload: `full` and `last` are what they carry, `wires` and `lastWire`
their bytes. -/
structure Canonical (payload : List UInt8) (full : List (List UInt8)) (last : List UInt8)
    (wires : List (List UInt8)) (lastWire : List UInt8) : Prop
    extends Cut maxBlockPayload payload full last where
  number : wires.length + 1 = max 1 (payload.length ⌈/⌉ maxBlockPayload)
  blocks : List.Forall₂ (IsBlock false) full wires
  lastBlock : IsBlock true last lastWire

variable {payload last lastWire : List UInt8} {full wires : List (List UInt8)}

theorem wire_of_isBlock {isLast : Bool} {chunk wire : List UInt8}
    (block : IsBlock isLast chunk wire) : wire = headerBytes chunk.length isLast ++ chunk :=
  (isBlock_iff.mp block).2

theorem isBlock_headerBytes (isLast : Bool) {chunk : List UInt8}
    (short : chunk.length ≤ maxBlockPayload) :
    IsBlock isLast chunk (headerBytes chunk.length isLast ++ chunk) :=
  isBlock_iff.mpr ⟨short.trans_lt (by decide), rfl⟩

theorem encodeChunks_blocks (blocks : List.Forall₂ (IsBlock false) full wires)
    (lastBlock : IsBlock true last lastWire) (out : List UInt8) :
    encodeChunks (full ++ [last]) out = out ++ (wires.flatten ++ lastWire) := by
  -- the chunks but the last one are not last when peeked at
  induction blocks generalizing out with
  | nil =>
    rw [wire_of_isBlock lastBlock]
    simp [encodeChunks]
  | @cons chunk wire full wires block _ ih =>
    have another : (full ++ [last]).isEmpty = false := by simp
    rw [List.cons_append, encodeChunks, another, ih, wire_of_isBlock block]
    simp only [List.flatten_cons, List.append_assoc]

theorem exists_canonical (payload : List UInt8) :
    ∃ full last wires lastWire, Canonical payload full last wires lastWire := by
  obtain ⟨full, last, cut⟩ : ∃ full last, Cut maxBlockPayload payload full last :=
    exists_cut (by decide) payload
  have blocks : List.Forall₂ (IsBlock false) full
      (full.map fun chunk => headerBytes chunk.length false ++ chunk) := by
    rw [List.forall₂_map_right_iff, List.forall₂_same]
    exact fun chunk mem => isBlock_headerBytes false (cut.filled chunk mem).le
  have lastBlock := isBlock_headerBytes true cut.short
  have number := cut.number (by decide)
  rw [blocks.length_eq] at number
  exact ⟨full, last, _, _, cut, number, blocks, lastBlock⟩

theorem encodeMessage_of_canonical (canonical : Canonical payload full last wires lastWire)
    (out : List UInt8) : encodeMessage payload out = out ++ (wires.flatten ++ lastWire) := by
  have emitted := encodeChunks_blocks canonical.blocks canonical.lastBlock out
  by_cases empty : payload = []
  · -- no chunk at all, where the cut has an empty last one
    have length := canonical.toCut.length
    rw [empty, List.length_nil, eq_comm, Nat.add_eq_zero_iff, Nat.mul_eq_zero] at length
    obtain rfl : full = [] := List.length_eq_zero_iff.mp (length.1.resolve_left (by decide))
    obtain rfl : last = [] := List.length_eq_zero_iff.mp length.2
    rw [← emitted, encodeMessage, if_pos empty]
    simp [encodeChunks]
  · rw [encodeMessage, if_neg empty, chunks_of_cut (by decide) canonical.toCut empty, emitted]

/-- The encoder appends the canonical blocks of the payload, and no payload has others. -/
theorem encodeMessage_canonical (payload out : List UInt8) :
    (∃ full last wires lastWire, Canonical payload full last wires lastWire ∧
      encodeMessage payload out = out ++ (wires.flatten ++ lastWire)) ∧
    ∀ full last wires lastWire, Canonical payload full last wires lastWire →
      encodeMessage payload out = out ++ (wires.flatten ++ lastWire) := by
  obtain ⟨full, last, wires, lastWire, canonical⟩ := exists_canonical payload
  refine ⟨⟨full, last, wires, lastWire, canonical, encodeMessage_of_canonical canonical out⟩, ?_⟩
  intro _ _ _ _ other
  exact encodeMessage_of_canonical other out

end Blocks

end SqlxMonetdb.CanonicalBlocks
