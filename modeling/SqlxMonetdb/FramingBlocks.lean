import SqlxMonetdb.Framing
import SqlxMonetdb.Scanning

set_option autoImplicit false

namespace SqlxMonetdb.FramingBlocks
open Framing StreamReader

inductive Framed : List UInt8 → List UInt8 → Prop where
  | last {chunk : List UInt8} (h : chunk.length < 2 ^ 15) :
      Framed (headerBytes chunk.length true ++ chunk) chunk
  | more {chunk wire message : List UInt8} (h : chunk.length < 2 ^ 15)
      (rest : Framed wire message) :
      Framed (headerBytes chunk.length false ++ (chunk ++ wire)) (chunk ++ message)

theorem decodeBlock_append {chunk : List UInt8} (h : chunk.length < 2 ^ 15) (isLast : Bool)
    (pre post message : List UInt8) :
    decodeBlock (pre ++ (headerBytes chunk.length isLast ++ (chunk ++ post))) pre.length message =
      some (pre.length + 2 + chunk.length, message ++ chunk, isLast) := by
  have header := decodeHeader_encodeHeader h isLast
  have first : (pre ++ (headerBytes chunk.length isLast ++ (chunk ++ post))).getD pre.length 0 =
      (encodeHeader chunk.length isLast).1 := by simp [headerBytes]
  have second : (pre ++ (headerBytes chunk.length isLast ++ (chunk ++ post))).getD
      (pre.length + 1) 0 = (encodeHeader chunk.length isLast).2 := by simp [headerBytes]
  have payload : (pre ++ (headerBytes chunk.length isLast ++ (chunk ++ post))).drop
      (pre.length + 2) = chunk ++ post := by
    rw [← List.append_assoc, List.drop_left']
    simp
  unfold decodeBlock
  rw [first, second, header, payload]
  simp only [List.length_append, headerBytes_length, List.take_left]
  rw [if_neg (by omega), if_neg (by omega)]

theorem decodeFrom_of_block {data message message' : List UInt8} {offset offset' : ℕ} {isLast : Bool}
    (h : decodeBlock data offset message = some (offset', message', isLast)) :
    decodeFrom data offset message =
      if isLast then some (message', offset') else decodeFrom data offset' message' := by
  rw [decodeFrom]
  split
  · rename_i none
    rw [h] at none
    cases none
  · rename_i found
    rw [h] at found
    obtain ⟨rfl, rfl, rfl⟩ := by simpa using found
    rfl

theorem decodeFrom_of_failure {data message : List UInt8} {offset : ℕ}
    (h : decodeBlock data offset message = none) : decodeFrom data offset message = none := by
  rw [decodeFrom]
  split
  · rfl
  · rename_i found
    rw [h] at found
    cases found

/-- Decoding a legal block sequence gives its message and takes exactly its bytes,
whatever comes before the offset and after the sequence. -/
theorem decodeFrom_framed {wire message : List UInt8} (framed : Framed wire message)
    (pre rest acc : List UInt8) :
    decodeFrom (pre ++ (wire ++ rest)) pre.length acc =
      some (acc ++ message, pre.length + wire.length) := by
  induction framed generalizing pre acc with
  | @last chunk h =>
    have block := decodeBlock_append h true pre rest acc
    rw [List.append_assoc, decodeFrom_of_block block]
    simp [Nat.add_assoc]
  | @more chunk wire message h _ ih =>
    have block := decodeBlock_append h false pre (wire ++ rest) acc
    have tail := ih (pre ++ headerBytes chunk.length false ++ chunk) (acc ++ chunk)
    simp only [List.append_assoc, List.length_append, headerBytes_length] at tail ⊢
    rw [decodeFrom_of_block block]
    simp only [Bool.false_eq_true, if_false, Nat.add_assoc] at tail ⊢
    exact tail

theorem decodeMessage_framed {wire message : List UInt8} (framed : Framed wire message)
    (rest : List UInt8) : decodeMessage (wire ++ rest) = some (message, wire.length) := by
  simpa [decodeMessage] using decodeFrom_framed framed [] rest []

theorem encodeChunks_framed {cs : List (List UInt8)} (nonempty : cs ≠ [])
    (short : ∀ c ∈ cs, c.length < 2 ^ 15) :
    ∃ wire, (∀ out, encodeChunks cs out = out ++ wire) ∧ Framed wire cs.flatten := by
  induction cs with
  | nil => exact absurd rfl nonempty
  | cons chunk cs ih =>
    have hc := short chunk (by simp)
    cases cs with
    | nil =>
      refine ⟨headerBytes chunk.length true ++ chunk, fun out => ?_, ?_⟩
      · simp [encodeChunks]
      · simpa using Framed.last hc
    | cons next cs =>
      obtain ⟨wire, emitted, framed⟩ := ih (by simp) fun c hm => short c (by simp [hm])
      refine ⟨headerBytes chunk.length false ++ (chunk ++ wire), fun out => ?_, Framed.more hc framed⟩
      rw [encodeChunks, emitted]
      simp

theorem encodeMessage_framed (payload : List UInt8) :
    ∃ wire, (∀ out, encodeMessage payload out = out ++ wire) ∧ Framed wire payload := by
  by_cases h : payload = []
  · subst h
    exact ⟨headerBytes 0 true, fun out => by simp [encodeMessage],
      @Framed.last [] (by norm_num)⟩
  · obtain ⟨wire, emitted, framed⟩ := encodeChunks_framed
      (chunks_ne_nil maxBlockPayload (by decide) h) fun c hc =>
        (length_le_of_mem_chunks hc).trans_lt (by decide)
    rw [chunks_flatten (by decide)] at framed
    exact ⟨wire, fun out => by rw [encodeMessage, if_neg h, emitted], framed⟩

theorem framed_encodeMessage (payload : List UInt8) :
    Framed (encodeMessage payload []) payload := by
  obtain ⟨wire, emitted, framed⟩ := encodeMessage_framed payload
  rw [emitted, List.nil_append]
  exact framed

/-- A caller of `decodeMessage` that drops the bytes each message occupied. -/
def nextMessage : Reader Unit UInt8 (List UInt8 × ℕ) := fun data =>
  match decodeMessage data with
  | none => (.error (), data)
  | some (message, consumed) => (.ok (message, consumed), data.drop consumed)

theorem nextMessage_exact {wire message : List UInt8} (framed : Framed wire message) :
    Exact nextMessage wire (message, wire.length) := by
  intro rest
  simp [nextMessage, decodeMessage_framed framed]

/-- Encoded messages, one after another, are decoded one after another. -/
theorem decodes_encoded_stream (payloads : List (List UInt8)) (rest : List UInt8) :
    times nextMessage payloads.length ((payloads.map fun p => encodeMessage p []).flatten ++ rest) =
      (.ok (payloads.map fun p => (p, (encodeMessage p []).length)), rest) := by
  have reads := Exact.times (r := nextMessage)
    (payloads.map fun p => (encodeMessage p [], p, (encodeMessage p []).length)) (by
      intro piece mem
      obtain ⟨p, -, rfl⟩ := List.mem_map.mp mem
      exact nextMessage_exact (framed_encodeMessage p))
  simpa [List.map_map, Function.comp_def] using reads rest

end SqlxMonetdb.FramingBlocks
