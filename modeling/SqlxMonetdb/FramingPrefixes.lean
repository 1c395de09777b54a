import SqlxMonetdb.FramingBlocks

set_option autoImplicit false

namespace SqlxMonetdb.FramingPrefixes
open Framing FramingBlocks

section Grammar

/-- Two header bytes, the little-endian number `2 * len + last`, and `len` payload bytes. -/
def IsBlock (isLast : Bool) (payload wire : List UInt8) : Prop :=
  ∃ a b : UInt8, wire = a :: b :: payload ∧
    a.toNat + 256 * b.toNat = 2 * payload.length + isLast.toNat

inductive BlockSequence : List UInt8 → List UInt8 → Prop where
  | last {payload wire : List UInt8} (block : IsBlock true payload wire) :
      BlockSequence wire payload
  | more {payload wire rest message : List UInt8} (block : IsBlock false payload wire)
      (tail : BlockSequence rest message) : BlockSequence (wire ++ rest) (payload ++ message)

theorem isBlock_iff {isLast : Bool} {payload wire : List UInt8} :
    IsBlock isLast payload wire ↔
      payload.length < 2 ^ 15 ∧ wire = headerBytes payload.length isLast ++ payload := by
  have packed (h : payload.length < 2 ^ 15) :
      (encodeHeader payload.length isLast).1.toNat +
        256 * (encodeHeader payload.length isLast).2.toNat =
      2 * payload.length + isLast.toNat := by
    have header := decodeHeader_encodeHeader h isLast
    rw [← Prod.mk.eta (p := encodeHeader payload.length isLast), decodeHeader_eq,
      Prod.mk.injEq] at header
    cases isLast <;> simp at header ⊢ <;> omega
  constructor
  · rintro ⟨a, b, rfl, number⟩
    have ha := a.toNat_lt
    have hb := b.toNat_lt
    have short : payload.length < 2 ^ 15 := by omega
    have same := packed short
    have ha' := (encodeHeader payload.length isLast).1.toNat_lt
    refine ⟨short, ?_⟩
    have first : a = (encodeHeader payload.length isLast).1 := UInt8.toNat_inj.mp (by omega)
    have second : b = (encodeHeader payload.length isLast).2 := UInt8.toNat_inj.mp (by omega)
    rw [headerBytes, ← first, ← second]
    rfl
  · rintro ⟨short, rfl⟩
    exact ⟨_, _, rfl, packed short⟩

theorem blockSequence_iff_framed {wire message : List UInt8} :
    BlockSequence wire message ↔ Framed wire message := by
  constructor
  · intro h
    induction h with
    | last block =>
      obtain ⟨short, rfl⟩ := isBlock_iff.mp block
      exact .last short
    | more block _ ih =>
      obtain ⟨short, rfl⟩ := isBlock_iff.mp block
      rw [List.append_assoc]
      exact .more short ih
  · intro h
    induction h with
    | last short => exact .last (isBlock_iff.mpr ⟨short, rfl⟩)
    | more short _ ih =>
      rw [← List.append_assoc]
      exact .more (isBlock_iff.mpr ⟨short, rfl⟩) ih

end Grammar

section Acceptance

theorem isBlock_of_decodeBlock {data message message' : List UInt8} {offset offset' : ℕ}
    {isLast : Bool} (h : decodeBlock data offset message = some (offset', message', isLast)) :
    ∃ payload, message' = message ++ payload ∧
      IsBlock isLast payload ((data.drop offset).take (offset' - offset)) := by
  unfold decodeBlock at h
  split at h
  · cases h
  · rename_i long
    obtain ⟨a, ha⟩ : ∃ a, data[offset]? = some a := ⟨_, List.getElem?_eq_getElem (by omega)⟩
    obtain ⟨b, hb⟩ : ∃ b, data[offset + 1]? = some b := ⟨_, List.getElem?_eq_getElem (by omega)⟩
    have cut : data.drop offset = a :: b :: data.drop (offset + 2) := by
      rw [List.drop_eq_getElem?_toList_append, ha, List.drop_eq_getElem?_toList_append, hb]
      rfl
    simp only [List.getD_eq_getElem?_getD, ha, hb, Option.getD_some, decodeHeader_eq] at h
    split at h
    · cases h
    · rename_i longer
      simp only [Option.some.injEq, Prod.mk.injEq] at h
      obtain ⟨rfl, rfl, rfl⟩ := h
      refine ⟨_, rfl, a, b, ?_, ?_⟩
      · rw [cut, show ∀ n, offset + 2 + n - offset = n + 2 by omega]
        rfl
      · have parity : (decide (a.toNat % 2 = 1)).toNat = a.toNat % 2 := by
          rcases Nat.mod_two_eq_zero_or_one a.toNat with even | odd
          · simp [even]
          · simp [odd]
        rw [parity, List.length_take, List.length_drop]
        omega

theorem blockSequence_of_decodeFrom {data message result : List UInt8} {offset k : ℕ}
    (h : decodeFrom data offset message = some (result, k)) :
    offset ≤ k ∧ k ≤ data.length ∧ ∃ payload, result = message ++ payload ∧
      BlockSequence ((data.drop offset).take (k - offset)) payload := by
  induction offset, message using decodeFrom.induct data with
  | case1 offset message failed =>
    rw [decodeFrom_of_failure failed] at h
    cases h
  | case2 offset message offset' message' block =>
    have bounds := decodeBlock_offset block
    rw [decodeFrom_of_block block, if_pos rfl, Option.some.injEq, Prod.mk.injEq] at h
    obtain ⟨rfl, rfl⟩ := h
    obtain ⟨payload, rfl, isBlock⟩ := isBlock_of_decodeBlock block
    exact ⟨by omega, bounds.2, payload, rfl, .last isBlock⟩
  | case3 offset message offset' message' isLast block notLast ih =>
    have bounds := decodeBlock_offset block
    rw [decodeFrom_of_block block, if_neg notLast] at h
    obtain ⟨after, within, rest, rfl, tail⟩ := ih h
    obtain ⟨payload, rfl, isBlock⟩ := isBlock_of_decodeBlock block
    obtain rfl : isLast = false := by simpa using notLast
    refine ⟨by omega, within, payload ++ rest, List.append_assoc _ _ _, ?_⟩
    have cut : (data.drop offset).take (k - offset) =
        (data.drop offset).take (offset' - offset) ++ (data.drop offset').take (k - offset') := by
      rw [show k - offset = (offset' - offset) + (k - offset') by omega, List.take_add,
        List.drop_drop, show offset + (offset' - offset) = offset' by omega]
    rw [cut]
    exact .more isBlock tail

theorem decodeMessage_iff {data message : List UInt8} {k : ℕ} :
    decodeMessage data = some (message, k) ↔
      k ≤ data.length ∧ BlockSequence (data.take k) message := by
  constructor
  · intro h
    obtain ⟨-, within, payload, rfl, blocks⟩ := blockSequence_of_decodeFrom h
    exact ⟨within, by simpa using blocks⟩
  · rintro ⟨within, blocks⟩
    have decoded := decodeMessage_framed (blockSequence_iff_framed.mp blocks) (data.drop k)
    rwa [List.take_append_drop, List.length_take, Nat.min_eq_left within] at decoded

theorem decodeMessage_append {data message : List UInt8} {k : ℕ}
    (h : decodeMessage data = some (message, k)) (more : List UInt8) :
    decodeMessage (data ++ more) = some (message, k) := by
  obtain ⟨within, blocks⟩ := decodeMessage_iff.mp h
  refine decodeMessage_iff.mpr ⟨by rw [List.length_append]; omega, ?_⟩
  rwa [List.take_append_of_le_length within]

theorem decodeMessage_take {data message : List UInt8} {j k : ℕ}
    (h : decodeMessage data = some (message, k)) (short : j < k) :
    decodeMessage (data.take j) = none := by
  cases early : decodeMessage (data.take j) with
  | none => rfl
  | some found =>
    obtain ⟨message', k'⟩ := found
    have whole := decodeMessage_append early (data.drop j)
    rw [List.take_append_drop, h, Option.some.injEq, Prod.mk.injEq] at whole
    have within := (decodeMessage_iff.mp early).1
    rw [List.length_take] at within
    omega

end Acceptance

section Arrival

/-- A caller that appends what arrives to its buffer and decodes again. -/
def retry (buffer : List UInt8) : List (List UInt8) → Option (List UInt8 × ℕ)
  | [] => decodeMessage buffer
  | chunk :: arrivals =>
    match decodeMessage buffer with
    | some found => some found
    | none => retry (buffer ++ chunk) arrivals

theorem retry_eq (buffer : List UInt8) (arrivals : List (List UInt8)) :
    retry buffer arrivals = decodeMessage (buffer ++ arrivals.flatten) := by
  induction arrivals generalizing buffer with
  | nil => simp [retry]
  | cons chunk arrivals ih =>
    rw [retry]
    cases early : decodeMessage buffer with
    | some found =>
      obtain ⟨message, k⟩ := found
      exact (decodeMessage_append early _).symm
    | none =>
      dsimp only
      rw [ih, List.flatten_cons, List.append_assoc]

/-- The loop of `decodeMessage` stopped after `turns` turns; `none` when it has not
returned by then. -/
def decodeTurns (data : List UInt8) : ℕ → ℕ → List UInt8 → Option (Option (List UInt8 × ℕ))
  | 0, _, _ => none
  | turns + 1, offset, message =>
    match decodeBlock data offset message with
    | none => some none
    | some (offset, message, isLast) =>
      if isLast then some (some (message, offset)) else decodeTurns data turns offset message

theorem decodeTurns_enough (data : List UInt8) {turns offset : ℕ} (message : List UInt8)
    (within : offset ≤ data.length) (enough : data.length < offset + 2 * turns) :
    decodeTurns data turns offset message = some (decodeFrom data offset message) := by
  -- each turn takes at least a header, so the loop returns
  induction turns generalizing offset message with
  | zero => omega
  | succ turns ih =>
    rw [decodeTurns]
    cases block : decodeBlock data offset message with
    | none => rw [decodeFrom_of_failure block]
    | some found =>
      obtain ⟨offset', message', isLast⟩ := found
      have bounds := decodeBlock_offset block
      have rest := @ih offset' message' bounds.2 (by omega)
      dsimp only
      rw [decodeFrom_of_block block, rest]
      cases isLast <;> rfl

end Arrival

/-- The decoder is the exact recogniser of the block grammar, decided by the bytes of
the message alone, and its loop ends within one turn for every two bytes. -/
theorem decodeMessage_recognises (data : List UInt8) :
    (∀ message k, decodeMessage data = some (message, k) ↔
      k ≤ data.length ∧ BlockSequence (data.take k) message) ∧
    (∀ message k message' k', k ≤ data.length → k' ≤ data.length →
      BlockSequence (data.take k) message → BlockSequence (data.take k') message' →
      message = message' ∧ k = k') ∧
    (∀ message k, decodeMessage data = some (message, k) →
      (∀ more, decodeMessage (data ++ more) = some (message, k)) ∧
      (∀ j < k, decodeMessage (data.take j) = none)) ∧
    (∀ arrivals : List (List UInt8), arrivals.flatten = data →
      retry [] arrivals = decodeMessage data) ∧
    decodeTurns data (data.length / 2 + 1) 0 [] = some (decodeMessage data) := by
  refine ⟨fun _ _ => decodeMessage_iff, ?_, ?_, ?_, ?_⟩
  · intro message k message' k' within within' blocks blocks'
    have found := decodeMessage_iff.mpr ⟨within, blocks⟩
    have found' := decodeMessage_iff.mpr ⟨within', blocks'⟩
    simpa using found.symm.trans found'
  · exact fun message k found =>
      ⟨decodeMessage_append found, fun j short => decodeMessage_take found short⟩
  · rintro arrivals rfl
    rw [retry_eq, List.nil_append]
  · exact decodeTurns_enough data [] (Nat.zero_le _) (by omega)

end SqlxMonetdb.FramingPrefixes
