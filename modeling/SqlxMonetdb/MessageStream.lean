import SqlxMonetdb.DriverError
import SqlxMonetdb.FramingPrefixes

set_option autoImplicit false

namespace SqlxMonetdb.MessageStream
open Framing FramingBlocks FramingPrefixes StreamReader TextPrimitives DriverError

structure MonetStream where
  unread : List UInt8
  written : List UInt8
  deriving DecidableEq

def endOfStream : Error := .io .unexpectedEof

/-- The socket library fills its read buffer up to `n` bytes and hands them out; it fails where the
server sends no more. -/
def readBuffered (stream : MonetStream) (n : ℕ) : Except Error (List UInt8) × MonetStream :=
  let (outcome, unread) := need endOfStream n stream.unread
  (outcome, { stream with unread })

/-- A message that is written and flushed, on a stream that takes it: a failing write or flush is
left out here. -/
def writeMessage (stream : MonetStream) (payload : List UInt8) : MonetStream :=
  let framed := encodeMessage payload []
  { stream with written := stream.written ++ framed }

/-- One turn of the loop of `readMessage`: the message so far with the next block's
payload, and whether that block is the last. An empty payload is not read. -/
def readBlock (stream : MonetStream) (message : List UInt8) :
    Except Error (List UInt8 × Bool) × MonetStream :=
  match readBuffered stream 2 with
  | (.error e, stream) => (.error e, stream)
  | (.ok header, stream) =>
    let (len, isLast) := decodeHeader (header.getD 0 0, header.getD 1 0)
    if len > 0 then
      match readBuffered stream len with
      | (.error e, stream) => (.error e, stream)
      | (.ok payload, stream) => (.ok (message ++ payload, isLast), stream)
    else (.ok (message, isLast), stream)

theorem readBuffered_of_le {stream : MonetStream} {n : ℕ} (h : n ≤ stream.unread.length) :
    readBuffered stream n =
      (.ok (stream.unread.take n), { stream with unread := stream.unread.drop n }) := by
  rw [readBuffered, need_of_length_le endOfStream h]

theorem readBuffered_of_lt {stream : MonetStream} {n : ℕ} (h : stream.unread.length < n) :
    readBuffered stream n = (.error endOfStream, stream) := by
  rw [readBuffered, need_of_length_lt endOfStream h]

theorem readBuffered_ok {stream stream' : MonetStream} {n : ℕ} {bytes : List UInt8}
    (h : readBuffered stream n = (.ok bytes, stream')) :
    stream'.unread.length + n = stream.unread.length := by
  by_cases hn : stream.unread.length < n
  · rw [readBuffered_of_lt hn] at h
    cases h
  · rw [readBuffered_of_le (Nat.not_lt.mp hn), Prod.mk.injEq] at h
    rw [← h.2, List.length_drop]
    omega

theorem readBlock_ok {stream stream' : MonetStream} {message : List UInt8}
    {out : List UInt8 × Bool} (h : readBlock stream message = (.ok out, stream')) :
    stream'.unread.length + 2 ≤ stream.unread.length := by
  unfold readBlock at h
  split at h
  · cases h
  · rename_i header afterHeader hh
    have took := readBuffered_ok hh
    dsimp only at h
    split at h
    · split at h
      · cases h
      · rename_i payload afterPayload hp
        have tookPayload := readBuffered_ok hp
        rw [Prod.mk.injEq] at h
        rw [← h.2]
        omega
    · rw [Prod.mk.injEq] at h
      rw [← h.2]
      omega

@[semireducible] def readFrom (stream : MonetStream) (message : List UInt8) :
    Except Error (List UInt8) × MonetStream :=
  match h : readBlock stream message with
  | (.error e, stream') => (.error e, stream')
  | (.ok (message', isLast), stream') =>
    if isLast then (.ok message', stream') else readFrom stream' message'
termination_by stream.unread.length
decreasing_by
  have := readBlock_ok h
  omega

def readMessage (stream : MonetStream) : Except Error (List UInt8) × MonetStream :=
  readFrom stream []

def readTextMessage (stream : MonetStream) : Except Error Text × MonetStream :=
  match readMessage stream with
  | (.error e, stream) => (.error e, stream)
  | (.ok bytes, stream) =>
    match fromUtf8 bytes with
    | some text => (.ok text, stream)
    | none =>
      (.error (MonetError.protocol
        [.text "expected UTF-8 text message: ", .utf8Error bytes]).toError, stream)

theorem readFrom_of_block {stream stream' : MonetStream} {message message' : List UInt8}
    {isLast : Bool} (h : readBlock stream message = (.ok (message', isLast), stream')) :
    readFrom stream message =
      if isLast then (.ok message', stream') else readFrom stream' message' := by
  rw [readFrom]
  split
  · rename_i failed
    rw [h] at failed
    cases failed
  · rename_i found
    rw [h] at found
    obtain ⟨⟨rfl, rfl⟩, rfl⟩ := by simpa using found
    rfl

theorem readFrom_of_failure {stream stream' : MonetStream} {message : List UInt8} {e : Error}
    (h : readBlock stream message = (.error e, stream')) :
    readFrom stream message = (.error e, stream') := by
  rw [readFrom]
  split
  · rename_i failed
    rw [h] at failed
    obtain ⟨rfl, rfl⟩ := by simpa using failed
    rfl
  · rename_i found
    rw [h] at found
    cases found

theorem readMessage_nil (written : List UInt8) :
    readMessage ⟨[], written⟩ = (.error endOfStream, ⟨[], written⟩) := by
  refine readFrom_of_failure ?_
  rw [readBlock, readBuffered_of_lt (by simp)]

section Agreement

variable (data written : List UInt8)

theorem getD_take_drop {n offset i : ℕ} (hi : i < n) :
    ((data.drop offset).take n).getD i 0 = data.getD (offset + i) 0 := by
  simp [hi]

theorem readBlock_of_decodeBlock_none {offset : ℕ} (within : offset ≤ data.length)
    (message : List UInt8) (h : decodeBlock data offset message = none) :
    (readBlock ⟨data.drop offset, written⟩ message).1 = .error endOfStream := by
  unfold decodeBlock at h
  split at h
  · rename_i short
    rw [readBlock, readBuffered_of_lt (by simp only [List.length_drop]; omega)]
  · rename_i long
    dsimp only at h
    split at h
    · rename_i short
      rw [readBlock, readBuffered_of_le (by simp only [List.length_drop]; omega)]
      simp only [getD_take_drop data (show 0 < 2 by omega),
        getD_take_drop data (show 1 < 2 by omega), Nat.add_zero, List.drop_drop]
      rw [if_pos (by omega), readBuffered_of_lt (by simp only [List.length_drop]; omega)]
    · cases h

theorem readBlock_of_decodeBlock_some {offset offset' : ℕ} {message message' : List UInt8}
    {isLast : Bool} (h : decodeBlock data offset message = some (offset', message', isLast)) :
    readBlock ⟨data.drop offset, written⟩ message =
      (.ok (message', isLast), ⟨data.drop offset', written⟩) := by
  unfold decodeBlock at h
  split at h
  · cases h
  · rename_i long
    dsimp only at h
    split at h
    · cases h
    · rename_i longer
      simp only [Option.some.injEq, Prod.mk.injEq] at h
      obtain ⟨rfl, rfl, rfl⟩ := h
      rw [readBlock, readBuffered_of_le (by simp only [List.length_drop]; omega)]
      simp only [getD_take_drop data (show 0 < 2 by omega),
        getD_take_drop data (show 1 < 2 by omega), Nat.add_zero, List.drop_drop]
      split
      · rw [readBuffered_of_le (by simp only [List.length_drop]; omega)]
        simp only [List.drop_drop]
      · rename_i empty
        simp only [Nat.eq_zero_of_not_pos empty, List.take_zero, List.append_nil, Nat.add_zero]

/-- The two loops run in step, block by block, from every offset. -/
theorem readFrom_of_decodeFrom (offset : ℕ) (within : offset ≤ data.length)
    (message : List UInt8) :
    match decodeFrom data offset message with
    | none => (readFrom ⟨data.drop offset, written⟩ message).1 = .error endOfStream
    | some (m, k) =>
      k ≤ data.length ∧ readFrom ⟨data.drop offset, written⟩ message =
        (.ok m, ⟨data.drop k, written⟩) := by
  induction offset, message using decodeFrom.induct data with
  | case1 offset message h =>
    have failed := readBlock_of_decodeBlock_none data written within message h
    rw [decodeFrom_of_failure h]
    cases hb : readBlock ⟨data.drop offset, written⟩ message with
    | mk outcome stream =>
      rw [hb] at failed
      dsimp only at failed ⊢
      rw [readFrom_of_failure (hb.trans (by rw [failed]))]
  | case2 offset message offset' message' h =>
    have bounds := decodeBlock_offset h
    rw [decodeFrom_of_block h, if_pos rfl]
    refine ⟨bounds.2, ?_⟩
    rw [readFrom_of_block (readBlock_of_decodeBlock_some data written h), if_pos rfl]
  | case3 offset message offset' message' isLast h notLast ih =>
    have bounds := decodeBlock_offset h
    rw [decodeFrom_of_block h, if_neg notLast,
      readFrom_of_block (readBlock_of_decodeBlock_some data written h), if_neg notLast]
    exact ih bounds.2

theorem readMessage_of_decodeMessage_some {m : List UInt8} {k : ℕ}
    (h : decodeMessage data = some (m, k)) :
    k ≤ data.length ∧ readMessage ⟨data, written⟩ = (.ok m, ⟨data.drop k, written⟩) := by
  have step := readFrom_of_decodeFrom data written 0 (Nat.zero_le _) []
  rw [← decodeMessage, h] at step
  exact step

theorem readMessage_of_decodeMessage_none (h : decodeMessage data = none) :
    (readMessage ⟨data, written⟩).1 = .error endOfStream := by
  have step := readFrom_of_decodeFrom data written 0 (Nat.zero_le _) []
  rw [← decodeMessage, h] at step
  exact step

/-- On the same bytes the two decoders take the same message and leave the same rest, and one
runs out of bytes exactly when the other does. -/
theorem readMessage_agrees_decodeMessage :
    (∀ m k, ((readMessage ⟨data, written⟩).1 = .ok m ∧ k ≤ data.length ∧
        (readMessage ⟨data, written⟩).2.unread = data.drop k) ↔
      decodeMessage data = some (m, k)) ∧
    ((readMessage ⟨data, written⟩).1 = .error endOfStream ↔ decodeMessage data = none) := by
  cases h : decodeMessage data with
  | none =>
    have failed := readMessage_of_decodeMessage_none data written h
    simp [failed]
  | some found =>
    obtain ⟨m, k⟩ := found
    obtain ⟨within, read⟩ := readMessage_of_decodeMessage_some data written h
    rw [read]
    refine ⟨fun m' k' => ?_, by simp⟩
    simp only [Except.ok.injEq, Option.some.injEq, Prod.mk.injEq]
    refine and_congr_right fun _ => ?_
    constructor
    · rintro ⟨within', left⟩
      have lengths := congrArg List.length left
      simp only [List.length_drop] at lengths
      omega
    · rintro rfl
      exact ⟨within, rfl⟩

end Agreement

/-- Reading a legally framed message takes exactly its blocks off the stream. -/
theorem readMessage_framed {wire message : List UInt8} (framed : Framed wire message)
    (rest written : List UInt8) :
    readMessage ⟨wire ++ rest, written⟩ = (.ok message, ⟨rest, written⟩) := by
  have read := (readMessage_of_decodeMessage_some (wire ++ rest) written
    (decodeMessage_framed framed rest)).2
  rwa [List.drop_left] at read

/-- What a successful read takes is one legally framed message at the front of the stream. -/
theorem readMessage_eq_ok {stream after : MonetStream} {message : List UInt8} :
    readMessage stream = (.ok message, after) ↔
      ∃ wire rest, Framed wire message ∧ stream.unread = wire ++ rest ∧
        after = { stream with unread := rest } := by
  obtain ⟨data, written⟩ := stream
  constructor
  · intro read
    cases decoded : decodeMessage data with
    | none =>
      have failed := readMessage_of_decodeMessage_none data written decoded
      rw [read] at failed
      cases failed
    | some found =>
      obtain ⟨message', k⟩ := found
      obtain ⟨-, blocks⟩ := decodeMessage_iff.mp decoded
      have same := (readMessage_of_decodeMessage_some data written decoded).2.symm.trans read
      cases same
      exact ⟨data.take k, data.drop k, blockSequence_iff_framed.mp blocks,
        (List.take_append_drop k data).symm, rfl⟩
  · rintro ⟨wire, rest, framed, rfl, rfl⟩
    exact readMessage_framed framed rest written

theorem readTextMessage_eq_ok {stream after : MonetStream} {text : Text} :
    readTextMessage stream = (.ok text, after) ↔
      ∃ wire rest, Framed wire (utf8Encode text) ∧ stream.unread = wire ++ rest ∧
        after = { stream with unread := rest } := by
  rw [← readMessage_eq_ok, readTextMessage]
  rcases readMessage stream with ⟨e | bytes, stream'⟩
  · simp
  · cases decoded : fromUtf8 bytes with
    | none =>
      have differ : bytes ≠ utf8Encode text := by
        rintro rfl
        rw [fromUtf8_utf8Encode] at decoded
        cases decoded
      simp [decoded, differ]
    | some text' =>
      obtain rfl := fromUtf8_eq_some_iff.mp decoded
      have same : text' = text ↔ utf8Encode text' = utf8Encode text :=
        ⟨congrArg utf8Encode, fun h => by
          rw [h, fromUtf8_utf8Encode] at decoded
          exact (Option.some.inj decoded).symm⟩
      simp [fromUtf8_utf8Encode, same]

end SqlxMonetdb.MessageStream
