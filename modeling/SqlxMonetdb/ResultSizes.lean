import SqlxMonetdb.ReplySections
import SqlxMonetdb.ResponseErrors
import SqlxMonetdb.Session

set_option autoImplicit false

namespace SqlxMonetdb.ResultSizes
open ListSplitting TextPrimitives DriverError Framing FramingBlocks MessageStream Response ResponseLines
open ResponseErrors LabelledRuns Row Arguments Connection ReplySections Session

section Sizes

/-- The characters of a field, and one for the field itself. -/
def fieldSize (field : Option Text) : ℕ := (field.elim 0 List.length) + 1

def rowSize (fields : List (Option Text)) : ℕ := (fields.map fieldSize).sum + 1

def columnSize (name typeName : Text) : ℕ := name.length + typeName.length + 1

def columnsSize (columns : List ColumnMeta) : ℕ :=
  (columns.map fun column => columnSize column.name column.typeName).sum

def tableSize (t : TableResult) : ℕ := columnsSize t.columns + (t.rows.map rowSize).sum

def responseSize : QueryResponse → ℕ
  | .table t => tableSize t
  | _ => 0

def slotsSize (slots : Slots) : ℕ :=
  slots.table.elim 0 tableSize + slots.result.elim 0 responseSize

/-- What the rows of a query hold, which share their columns. The text of an error is not
measured. -/
def held (items : List Item) : ℕ :=
  ((rows items).head?.elim 0 fun row =>
      (row.columns.map fun column => columnSize column.name column.typeInfo.name).sum) +
    ((rows items).map fun row => rowSize row.values).sum

end Sizes

section Lines

theorem length_escaped_le (c : Char) : (escaped c).length ≤ 2 := by
  unfold escaped
  split_ifs <;> simp

theorem length_unescape_le (text : Text) : (unescape text).length ≤ text.length := by
  fun_induction unescape text with
  | case1 => exact le_refl _
  | case2 c => exact le_refl _
  | case3 d cs ih =>
    have two := length_escaped_le d
    rw [List.length_append, List.length_cons, List.length_cons]
    omega
  | case4 c d cs _ ih => exact Nat.succ_le_succ ih

theorem fieldSize_unescapeField {field : Text} {value : Option Text}
    (h : unescapeField field = .ok value) : fieldSize value ≤ field.length + 1 := by
  have whole : fieldSize (some field) ≤ field.length + 1 := le_refl _
  unfold unescapeField at h
  split_ifs at h with null
  · cases h
    exact Nat.succ_le_succ (Nat.zero_le _)
  · split at h
    · cases h
      exact whole
    · rename_i quote _
      split_ifs at h
      · split at h
        · cases h
          exact whole
        · rename_i quoted stripped
          cases h
          obtain ⟨inner, front, back⟩ := Option.bind_eq_some_iff.mp stripped
          have length := length_unescape_le quoted
          rw [isPrefixOf?_eq_some_iff.mp front, isSuffixOf?_eq_some_iff.mp back]
          simp only [fieldSize, Option.elim_some, List.length_append, List.length_singleton]
          omega
      · cases h
        exact whole

theorem fieldsSize_mapM {texts : List Text} {fields : List (Option Text)}
    (h : (texts.mapM fun text => unescapeField (trim text)) = .ok fields) :
    (fields.map fieldSize).sum ≤ extent texts := by
  induction texts generalizing fields with
  | nil =>
    cases h
    exact le_refl _
  | cons text texts ih =>
    rw [List.mapM_cons, bind_eq_ok] at h
    obtain ⟨field, read, rest⟩ := h
    obtain ⟨fields, tail, built⟩ := bind_eq_ok.mp rest
    cases built
    have head := (fieldSize_unescapeField read).trans
      (Nat.succ_le_succ (length_trimBy_le isWhitespace text))
    rw [List.map_cons, List.sum_cons, extent_cons]
    exact Nat.add_le_add head (ih tail)

theorem rowSize_parseTupleFields {rest : Text} {fields : List (Option Text)}
    (h : parseTupleFields rest = .ok fields) : rowSize fields ≤ rest.length + 1 := by
  unfold parseTupleFields at h
  split at h
  · cases h
  · rename_i inner stripped
    have trimmed := length_trimBy_le isWhitespace inner
    rw [isSuffixOf?_eq_some_iff.mp stripped, List.length_append, List.length_singleton]
    dsimp only at h
    split_ifs at h
    · cases h
      exact Nat.succ_le_succ (Nat.zero_le _)
    · have cut := extent_splitOnSeqFrom_le ",\t".toList 0 (trim inner)
      have fieldsSize := fieldsSize_mapM h
      rw [splitOnSeq] at fieldsSize
      rw [rowSize]
      rw [trim] at cut fieldsSize
      omega

theorem extent_parseHeaderValues {rest identity : Text} {values : List Text}
    (h : parseHeaderValues rest = .ok (identity, values)) : extent values ≤ rest.length := by
  unfold parseHeaderValues at h
  split at h
  · cases h
  · rename_i front back cut
    cases h
    obtain ⟨rfl, -⟩ := rsplitOnce_eq_some_iff.mp cut
    have trimmed := length_trimBy_le isWhitespace front
    have split := extent_splitOn_le ',' (trim front)
    have parts := extent_map_trimBy_le isWhitespace ((trim front).splitOn ',')
    rw [trim] at split parts
    change extent (((trimBy isWhitespace front).splitOn ',').map (trimBy isWhitespace)) ≤ _
    rw [List.length_append, List.length_cons]
    omega

end Lines

section Tables

variable {t t' : TableResult} {slots slots' : Slots} {line : Text}

theorem columnsSize_append (columns columns' : List ColumnMeta) :
    columnsSize (columns ++ columns') = columnsSize columns + columnsSize columns' := by
  simp [columnsSize]

theorem columnsSize_resizeColumns (columns : List ColumnMeta) (len : ℕ) :
    columnsSize (resizeColumns columns len) ≤ columnsSize columns + len := by
  unfold resizeColumns
  split
  · have fresh : columnsSize (List.replicate (len - columns.length) ColumnMeta.fresh) =
        len - columns.length := by
      simp [columnsSize, columnSize, ColumnMeta.fresh]
    rw [columnsSize_append, fresh]
    omega
  · exact Nat.le_add_right _ _

theorem columnSize_assign {identity : Text}
    {assign : ColumnMeta → Text → Except MonetError ColumnMeta}
    (known : headerAssignment identity = some assign) {column column' : ColumnMeta} {value : Text}
    (h : assign column value = .ok column') :
    columnSize column'.name column'.typeName ≤
      columnSize column.name column.typeName + value.length := by
  unfold headerAssignment at known
  unfold columnSize
  split_ifs at known
  · cases known
    cases h
    dsimp only
    omega
  · cases known
    cases h
    dsimp only
    omega
  · cases known
    obtain ⟨_, -, rfl⟩ := map_eq_ok.mp h
    exact Nat.le_add_right _ _
  · cases known
    obtain ⟨_, -, rfl⟩ := map_eq_ok.mp h
    exact Nat.le_add_right _ _
  · cases known
    cases h
    exact Nat.le_add_right _ _

theorem columnsSize_zipColumns {assign : ColumnMeta → Text → Except MonetError ColumnMeta}
    (grows : ∀ column value column', assign column value = .ok column' →
      columnSize column'.name column'.typeName ≤
        columnSize column.name column.typeName + value.length)
    {columns columns' : List ColumnMeta} {values : List Text}
    (h : zipColumns assign columns values = .ok columns') :
    columnsSize columns' + values.length ≤ columnsSize columns + extent values := by
  induction columns generalizing columns' values with
  | nil =>
    rw [zipColumns] at h
    · cases h
      rw [extent_eq]
      exact Nat.add_le_add_left (Nat.le_add_left _ _) _
    · simp
  | cons column columns ih =>
    cases values with
    | nil =>
      cases h
      exact le_refl _
    | cons value values =>
      simp only [zipColumns, bind_eq_ok] at h
      obtain ⟨column', assigned, rest, zipped, built⟩ := h
      cases built
      have first := grows _ _ _ assigned
      have others := ih zipped
      simp only [columnsSize, List.map_cons, List.sum_cons, extent_cons, List.length_cons] at others ⊢
      omega

theorem tableSize_applyHeaderValues {identity : Text} {values : List Text}
    (h : applyHeaderValues t identity values = .ok t') :
    tableSize t' ≤ tableSize t + extent values := by
  unfold applyHeaderValues at h
  dsimp only at h
  split at h
  · rename_i assign known
    obtain ⟨columns, zipped, rfl⟩ := map_eq_ok.mp h
    have resized := columnsSize_resizeColumns t.columns values.length
    have written := columnsSize_zipColumns (fun _ _ _ => columnSize_assign known) zipped
    unfold tableSize
    dsimp only
    omega
  · cases h

theorem readLine_columns {identity : Text} {values : List Text}
    (h : readLine line = .ok (.columns identity values)) : extent values ≤ line.length := by
  have kind := kindOf_lineKind line
  unfold readLine at h
  split at h <;> simp only [map_eq_ok, mapError_eq_ok, Except.ok.injEq, reduceCtorEq, and_false,
    exists_false] at h
  rename_i rest found
  obtain ⟨⟨identity', values'⟩, read, same⟩ := h
  cases same
  rw [found] at kind
  rw [kind, List.length_cons]
  exact (extent_parseHeaderValues read).trans (Nat.le_succ _)

theorem readLine_row {fields : List (Option Text)} (h : readLine line = .ok (.row fields)) :
    rowSize fields ≤ line.length := by
  have kind := kindOf_lineKind line
  unfold readLine at h
  split at h <;> simp only [map_eq_ok, mapError_eq_ok, Except.ok.injEq, reduceCtorEq, and_false,
    exists_false, LineEffect.row.injEq, exists_eq_right] at h
  rename_i rest found
  rw [found] at kind
  rw [kind, List.length_cons]
  exact rowSize_parseTupleFields h

theorem readLine_opens (h : readLine line = .ok (.opens t)) : tableSize t = 0 := by
  obtain ⟨-, rows, width⟩ := openTable_of_opened h
  rw [tableSize, rows, List.length_eq_zero_iff.mp width]
  rfl

theorem readLine_finishes {r : QueryResponse} (h : readLine line = .ok (.finishes r)) :
    responseSize r = 0 := by
  have finished : finished? line = some r := by simp [finished?, h]
  cases r with
  | table t => exact absurd rfl (finished?_ne_table finished t)
  | _ => rfl

/-- A line adds no more than its own length. -/
theorem slotsSize_keep (h : parseLine slots line = .ok slots') :
    slotsSize slots' ≤ slotsSize slots + line.length := by
  obtain ⟨effect, read, applied⟩ := readLine_of_parseLine h
  unfold slotsSize
  cases effect with
  | skip =>
    cases applied
    exact Nat.le_add_right _ _
  | opens t =>
    cases applied
    have opened := readLine_opens read
    simp only [Option.elim_some]
    omega
  | finishes r =>
    cases applied
    have finished := readLine_finishes read
    simp only [Option.elim_some]
    omega
  | columns identity values =>
    simp only [LineEffect.apply, bind_eq_ok, mapError_eq_ok] at applied
    obtain ⟨t, found, t', changed, built⟩ := applied
    cases built
    have changed := tableSize_applyHeaderValues changed
    have written := readLine_columns read
    rw [openTable_ok found]
    simp only [Option.elim_some]
    omega
  | row fields =>
    simp only [LineEffect.apply, bind_eq_ok] at applied
    obtain ⟨t, found, built⟩ := applied
    cases built
    have row := readLine_row read
    rw [openTable_ok found]
    simp only [Option.elim_some, tableSize, List.map_append, List.sum_append, List.map_singleton,
      List.sum_singleton]
    omega

theorem slotsSize_of_run {lines : List Text} (run : Runs (accepts parseLine) slots lines slots') :
    slotsSize slots' ≤ slotsSize slots + (lines.map List.length).sum := by
  refine run.history (I := fun past s => slotsSize s ≤ slotsSize slots + (past.map List.length).sum)
    (fun past line s s' before h => ?_) [] (le_refl _)
  have step := slotsSize_keep h
  simp only [List.map_append, List.sum_append, List.map_singleton, List.sum_singleton]
  omega

end Tables

section Replies

theorem responseSize_response (slots : Slots) : responseSize slots.response ≤ slotsSize slots := by
  obtain ⟨table, result⟩ := slots
  cases table with
  | some t => exact Nat.le_add_right _ _
  | none =>
    cases result with
    | none => exact Nat.zero_le _
    | some r => exact Nat.le_add_left _ _

theorem responseSize_parseResponse {text : Text} {response : QueryResponse}
    (h : parseResponse text = .ok response) : responseSize response ≤ text.length := by
  rw [parseResponse, bind_eq_ok] at h
  obtain ⟨slots, folded, built⟩ := h
  cases built
  have run := slotsSize_of_run (foldlM_ok_iff.mp folded)
  have cut := extent_splitOn_le '\n' text
  have some_line := List.length_pos_iff.mpr (List.splitOn_ne_nil '\n' text)
  rw [extent_eq] at cut
  have whole := responseSize_response slots
  have empty : slotsSize ⟨none, none⟩ = 0 := rfl
  change _ ≤ _ + ((text.splitOn '\n').map List.length).sum at run
  omega

theorem responseSize_messageResult {payload : List UInt8} {response : QueryResponse}
    (h : messageResult payload = .ok response) : responseSize response ≤ payload.length := by
  unfold messageResult at h
  split at h
  · rename_i text decoded
    rw [fromUtf8_eq_some_iff.mp decoded]
    exact (responseSize_parseResponse (mapError_eq_ok.mp h)).trans (length_le_utf8Encode text)
  · cases h

theorem length_le_of_framed {wire message : List UInt8} (framed : Framed wire message) :
    message.length ≤ wire.length := by
  induction framed with
  | last => simp
  | more _ _ ih =>
    simp only [List.length_append]
    omega

theorem columnsSize_fromMeta (columns : List ColumnMeta) :
    ((columns.mapIdx MonetColumn.fromMeta).map fun column =>
      columnSize column.name column.typeInfo.name).sum = columnsSize columns := by
  refine congrArg List.sum (List.ext_getElem (by simp) fun j _ _ => ?_)
  simp [MonetColumn.fromMeta, MonetTypeInfo.new]

theorem held_responseItems (response : QueryResponse) :
    held (responseItems response) ≤ responseSize response := by
  cases response with
  | table t =>
    rw [held, rows_table, fromTableResult, responseSize, tableSize, ← columnsSize_fromMeta]
    cases t.rows with
    | nil => exact Nat.zero_le _
    | cons fields rest => simp [Function.comp_def]
  | _ => exact Nat.zero_le _

theorem readBuffered_unread_le (stream : MonetStream) (n : ℕ) :
    (readBuffered stream n).2.unread.length ≤ stream.unread.length := by
  by_cases short : stream.unread.length < n
  · rw [readBuffered_of_lt short]
  · rw [readBuffered_of_le (Nat.not_lt.mp short), List.length_drop]
    exact Nat.sub_le _ _

theorem readBlock_unread_le (stream : MonetStream) (message : List UInt8) :
    (readBlock stream message).2.unread.length ≤ stream.unread.length := by
  have header := readBuffered_unread_le stream 2
  unfold readBlock
  generalize readBuffered stream 2 = got at header ⊢
  rcases got with ⟨e | bytes, after⟩
  · exact header
  · dsimp only at header ⊢
    generalize decodeHeader (bytes.getD 0 0, bytes.getD 1 0) = decoded
    obtain ⟨len, isLast⟩ := decoded
    have payload := readBuffered_unread_le after len
    dsimp only
    split
    · generalize readBuffered after len = got at payload ⊢
      rcases got with ⟨e | bytes, last⟩ <;> exact payload.trans header
    · exact header

theorem readFrom_unread_le (stream : MonetStream) (message : List UInt8) :
    (readFrom stream message).2.unread.length ≤ stream.unread.length := by
  -- a read that fails puts nothing back either
  fun_induction readFrom stream message with
  | case1 stream message e after failed =>
    have block := readBlock_unread_le stream message
    rwa [failed] at block
  | case2 stream message message' after ended =>
    have block := readBlock_unread_le stream message
    rwa [ended] at block
  | case3 stream message message' isLast after goes _ ih =>
    have block := readBlock_unread_le stream message
    rw [goes] at block
    exact ih.trans block

end Replies

section Sessions

theorem held_runCall (conn : MonetConnection) (call : Call) :
    held (runCall conn call).1 + (runCall conn call).2.stream.unread.length ≤
      conn.stream.unread.length := by
  have nothing (e : Error) : held [.error e] = 0 := rfl
  unfold runCall
  cases asked : sqlText call.sql call.arguments with
  | error e => rw [runQuery_unsent asked, nothing, Nat.zero_add]
  | ok query =>
    rw [runQuery_sent asked]
    have left := readFrom_unread_le (writeMessage conn.stream (encodeQuery query)) []
    cases read : readMessage (writeMessage conn.stream (encodeQuery query)) with
    | mk outcome after =>
      rw [← readMessage, read] at left
      cases outcome with
      | error e =>
        rw [executeQuery_of_failure read, resultItems, nothing, Nat.zero_add]
        exact left
      | ok message =>
        obtain ⟨wire, rest, framed, sent, rfl⟩ := readMessage_eq_ok.mp read
        rw [executeQuery_of_message read]
        have taken := length_le_of_framed framed
        have whole : conn.stream.unread.length = wire.length + rest.length := by
          rw [← List.length_append, ← sent]
          rfl
        have yields : held (resultItems (messageResult message)) ≤ message.length := by
          cases result : messageResult message with
          | error e => exact Nat.zero_le _
          | ok response =>
            exact (held_responseItems response).trans (responseSize_messageResult result)
        dsimp only
        omega

/-- The rows of a session and what is left unread are no more than what was there: a number that
is only declared buys no room. -/
theorem held_session (conn : MonetConnection) (calls : List Call) :
    let (results, after) := outputs runCall calls conn
    (results.map held).sum + after.stream.unread.length ≤ conn.stream.unread.length := by
  induction calls generalizing conn with
  | nil => simp [outputs]
  | cons call calls ih =>
    have first := held_runCall conn call
    have rest := ih (runCall conn call).2
    simp only [outputs, List.map_cons, List.sum_cons] at rest ⊢
    omega

end Sessions

end SqlxMonetdb.ResultSizes
