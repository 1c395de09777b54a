import SqlxMonetdb.JoinedReplies
import SqlxMonetdb.ResponseRendering
import SqlxMonetdb.Values

set_option autoImplicit false

namespace SqlxMonetdb.SelectedValues
open TextPrimitives DriverError FramingBlocks LabelledRuns Response ResponseLines ResponseRendering
open Row Arguments Connection ReplySections JoinedReplies Values

section Tables

variable {t : TableResult} {text : Text}

theorem parseResponse_rendered (plain : ∀ c ∈ t.columns, Plain c.name ∧ Plain c.typeName)
    (h : RendersTable t text) : parseResponse text = .ok (.table t) := by
  rw [parseResponse, foldlM_ok_iff.mpr (runs_rendered plain h _)]
  rfl

theorem combined_concat (responses : List QueryResponse) (t : TableResult) :
    combined (responses ++ [.table t]) = .table t := by
  rw [combined, List.foldl_append]
  rfl

end Tables

section Fields

variable {t : TableResult} {values : List (List BoundValue)}

/-- The rows of the table hold the values, one in each column. -/
structure Holds (t : TableResult) (values : List (List BoundValue)) : Prop where
  spelled : List.Forall₂ (List.Forall₂ Spells) t.rows values
  width : ∀ row ∈ values, row.length = t.columns.length

theorem Holds.field (holds : Holds t values) {i j : ℕ} {row : List BoundValue}
    {value : BoundValue} (hi : values[i]? = some row) (hj : row[j]? = some value) :
    j < t.columns.length ∧ ∃ fields field, t.rows[i]? = some fields ∧ fields[j]? = some field ∧
      Spells field value := by
  obtain ⟨inRows, rfl⟩ := List.getElem?_eq_some_iff.mp hi
  obtain ⟨inRow, rfl⟩ := List.getElem?_eq_some_iff.mp hj
  have sameRows := holds.spelled.length_eq
  have spelled := List.Forall₂.get holds.spelled (by omega) inRows
  simp only [List.get_eq_getElem] at spelled
  have sameRow := spelled.length_eq
  have wide := holds.width _ (List.getElem_mem inRows)
  exact ⟨by omega, _, _, List.getElem?_eq_getElem _, List.getElem?_eq_getElem _,
    List.Forall₂.get spelled (by omega) inRow⟩

section Access

variable {columns : List ColumnMeta} {fields : List (Option Text)} {j : ℕ} {column : ColumnMeta}
  {field : Option Text}

theorem tryGetRaw_field {ι : Type} [ColumnIndex ι] {index : ι}
    (found : ColumnIndex.index index ⟨columns.mapIdx MonetColumn.fromMeta, fields⟩ = .ok j)
    (hc : columns[j]? = some column) (hf : fields[j]? = some field) :
    tryGetRaw ⟨columns.mapIdx MonetColumn.fromMeta, fields⟩ index =
      .returned (.ok ⟨field, .new column.typeName⟩) := by
  simp [tryGetRaw, found, hc, hf, MonetColumn.fromMeta]

theorem index_position (hc : columns[j]? = some column) :
    ColumnIndex.index j ⟨columns.mapIdx MonetColumn.fromMeta, fields⟩ = .ok j := by
  have within := (List.getElem?_eq_some_iff.mp hc).1
  exact indexUsize_of_lt (by simpa using within)

end Access

/-- The rows a query yields hold the values, in their order, and every access to one of their
columns, by its position or as the first of its name, decodes the value there. -/
structure Selects (t : TableResult) (values : List (List BoundValue)) (items : List Item) :
    Prop where
  fine : allOk items = true
  count : (rows items).length = values.length
  decoded : ∀ (i j : ℕ) (row : List BoundValue) (value : BoundValue), values[i]? = some row →
    row[j]? = some value → ∃ monetRow field column, (rows items)[i]? = some monetRow ∧
      t.columns[j]? = some column ∧ field.typeInfo = .new column.typeName ∧
      tryGetRaw monetRow j = .returned (.ok field) ∧
      (∀ name : Text, t.columns.findIdx? (fun c => c.name = name) = some j →
        tryGetRaw monetRow name = .returned (.ok field)) ∧
      Decoded field value

theorem selects_of_holds (holds : Holds t values) :
    Selects t values (responseItems (.table t)) where
  fine := allOk_responseItems _
  count := by
    rw [rows_table, length_fromTableResult]
    exact holds.spelled.length_eq
  decoded i j row value hi hj := by
    obtain ⟨within, fields, field, hf, hfield, spelled⟩ := holds.field hi hj
    have hc : t.columns[j]? = some t.columns[j] := List.getElem?_eq_getElem within
    refine ⟨⟨t.columns.mapIdx MonetColumn.fromMeta, fields⟩, ⟨field, .new t.columns[j].typeName⟩,
      t.columns[j], ?_, hc, rfl, tryGetRaw_field (index_position hc) hc hfield, fun name first =>
        tryGetRaw_field (indexStr_first first) hc hfield, (decoded_iff _ value).mpr spelled⟩
    rw [rows_table, fromTableResult, List.getElem?_map, hf]
    rfl

/-- However a server frames, quotes and spells the values of a table, and whatever replies to
other statements stand in front of it, its query decodes exactly these values. -/
theorem runQuery_selects {sql query : Text} {arguments : Except Message (Option MonetArguments)}
    (sent : sqlText sql arguments = .ok query) {earlier : List Text}
    {responses : List QueryResponse}
    (accepted : List.Forall₂ (fun text r => parseResponse text = .ok r) earlier responses)
    (plain : ∀ c ∈ t.columns, Plain c.name ∧ Plain c.typeName) (holds : Holds t values)
    {text : Text} (rendered : RendersTable t text) {wire : List UInt8}
    (framed : Framed wire (utf8Encode (joined (earlier ++ [text])))) (rest written : List UInt8) :
    let answered := runQuery ⟨⟨wire ++ rest, written⟩⟩ sql arguments
    Selects t values answered.1 ∧ answered.2 = ⟨⟨rest, written ++ request query⟩⟩ := by
  intro answered
  dsimp only [answered]
  have all := List.rel_append accepted (.cons (parseResponse_rendered plain rendered) .nil)
  rw [runQuery_joined sent all framed, combined_concat]
  exact ⟨selects_of_holds holds, rfl⟩

def itemTable : TableResult :=
  { queryId := 0, rowCount := 2, declaredColumns := 2, embeddedTuples := 2,
    columns := [⟨"id".toList, "int".toList, some 4, some (4, none)⟩,
      ⟨"name".toList, "varchar".toList, some 8, some (8, none)⟩],
    rows := [[some "+7".toList, some "a,\t'b".toList], [none, some []]] }

def itemValues : List (List BoundValue) :=
  [[.int 7, .text "a,\t'b".toList], [.null, .text []]]

def itemReply : Text :=
  ("&1 0 2 2 2\n% id,\tname # name\n% int,\tvarchar # type\n% 4,\t8 # length\n" ++
    "% 4,\t8 # typesizes\n[ +7,\t'a,\\t\\'b'\t]\n[ NULL,\t\"\"\t]\n").toList

theorem rendersTable_itemReply : RendersTable itemTable itemReply := by
  have plus : RendersField (some "+7".toList) "+7".toList :=
    .bare ⟨by decide, by decide, by simp, by decide, by decide, by decide⟩
  have rows : List.Forall₂ (List.Forall₂ RendersField) itemTable.rows
      [["+7".toList, "'a,\\t\\'b'".toList], ["NULL".toList, "\"\"".toList]] :=
    .cons (.cons plus (.cons (.quoted .single "a,\t'b".toList) .nil))
      (.cons (.cons .null (.cons (.quoted .double []) .nil)) .nil)
  convert RendersTable.intro [] rows (.inr rfl) using 1
  decide +kernel

theorem holds_itemTable : Holds itemTable itemValues where
  spelled := .cons (.cons ⟨_, rfl, .plus (by decide)⟩ (.cons rfl .nil))
    (.cons (.cons rfl (.cons rfl .nil)) .nil)
  width := by decide

theorem runQuery_selects_items :
    let wire := Framing.encodeMessage (utf8Encode (joined (["&2 1 -1".toList] ++ [itemReply]))) []
    let answered := runQuery ⟨⟨wire ++ [], []⟩⟩ "INSERT; SELECT".toList (.ok none)
    Selects itemTable itemValues answered.1 ∧
      answered.2 = ⟨⟨[], [] ++ request "INSERT; SELECT".toList⟩⟩ := by
  intro wire
  have accepted : List.Forall₂ (fun text r => parseResponse text = .ok r) ["&2 1 -1".toList]
      [.update 1 none] := .cons (by decide +kernel) .nil
  have plain : ∀ c ∈ itemTable.columns, Plain c.name ∧ Plain c.typeName := by
    intro c hc
    simp only [itemTable, List.mem_cons, List.not_mem_nil, or_false] at hc
    rcases hc with rfl | rfl
    all_goals exact ⟨⟨by decide, by decide, by decide⟩, ⟨by decide, by decide, by decide⟩⟩
  have framed : Framed wire (utf8Encode (joined (["&2 1 -1".toList] ++ [itemReply]))) :=
    framed_encodeMessage _
  exact @runQuery_selects itemTable itemValues _ _ _ rfl _ _ accepted plain holds_itemTable _
    rendersTable_itemReply _ framed [] []

end Fields

end SqlxMonetdb.SelectedValues
