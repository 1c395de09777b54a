import SqlxMonetdb.ResponseLines

set_option autoImplicit false

namespace SqlxMonetdb.Row
open TextPrimitives DriverError Response ResponseLines

section Rows

structure MonetTypeInfo where
  name : Text
  isNull : Bool
  deriving DecidableEq

def MonetTypeInfo.new (name : Text) : MonetTypeInfo := ⟨name, false⟩

structure MonetColumn where
  ordinal : ℕ
  name : Text
  typeInfo : MonetTypeInfo
  deriving DecidableEq

def MonetColumn.fromMeta (ordinal : ℕ) (column : ColumnMeta) : MonetColumn :=
  ⟨ordinal, column.name, .new column.typeName⟩

structure MonetRow where
  columns : List MonetColumn
  values : List (Option Text)
  deriving DecidableEq

structure MonetValueRef where
  data : Option Text
  typeInfo : MonetTypeInfo
  deriving DecidableEq

def fromTableResult (table : TableResult) : List MonetRow :=
  let columns := table.columns.mapIdx MonetColumn.fromMeta
  table.rows.map fun values => ⟨columns, values⟩

class ColumnIndex (ι : Type) where
  index : ι → MonetRow → Except Error ℕ

def indexUsize (i : ℕ) (row : MonetRow) : Except Error ℕ :=
  let len := row.columns.length
  if len ≤ i then .error (.columnIndexOutOfBounds i len) else .ok i

def indexStr (name : Text) (row : MonetRow) : Except Error ℕ :=
  match row.columns.find? fun column => column.name = name with
  | some column => .ok column.ordinal
  | none => .error (.columnNotFound name)

instance : ColumnIndex ℕ := ⟨indexUsize⟩

instance : ColumnIndex Text := ⟨indexStr⟩

inductive Outcome (α : Type) where
  | returned (result : Except Error α)
  | panicked

def tryGetRaw {ι : Type} [ColumnIndex ι] (row : MonetRow) (index : ι) : Outcome MonetValueRef :=
  match ColumnIndex.index index row with
  | .error e => .returned (.error e)
  | .ok i =>
    match row.columns[i]?, row.values[i]? with
    | some column, some data => .returned (.ok ⟨data, column.typeInfo⟩)
    | _, _ => .panicked

end Rows

section Access

/-- Columns in the positions they carry, as `fromTableResult` numbers them. -/
def Numbered (row : MonetRow) : Prop := ∀ column ∈ row.columns, row.columns[column.ordinal]? = some column

theorem numbered_of_mem_fromTableResult {t : TableResult} {row : MonetRow}
    (mem : row ∈ fromTableResult t) : Numbered row := by
  obtain ⟨values, -, rfl⟩ := List.mem_map.mp mem
  intro column hc
  obtain ⟨i, hi, rfl⟩ := List.mem_mapIdx.mp hc
  simp [MonetColumn.fromMeta, hi]

theorem tryGetRaw_of_error {ι : Type} [ColumnIndex ι] {row : MonetRow} {index : ι} {e : Error}
    (h : ColumnIndex.index index row = .error e) : tryGetRaw row index = .returned (.error e) := by
  simp [tryGetRaw, h]

theorem tryGetRaw_of_index {ι : Type} [ColumnIndex ι] {row : MonetRow} {index : ι} {i : ℕ}
    (h : ColumnIndex.index index row = .ok i) (inColumns : i < row.columns.length)
    (inValues : i < row.values.length) :
    tryGetRaw row index = .returned (.ok ⟨row.values[i], row.columns[i].typeInfo⟩) := by
  simp [tryGetRaw, h, inColumns, inValues]

theorem indexUsize_of_lt {row : MonetRow} {i : ℕ} (h : i < row.columns.length) :
    ColumnIndex.index i row = .ok i := if_neg (Nat.not_le.mpr h)

theorem indexUsize_of_le {row : MonetRow} {i : ℕ} (h : row.columns.length ≤ i) :
    ColumnIndex.index i row = .error (.columnIndexOutOfBounds i row.columns.length) := if_pos h

theorem indexStr_cases {row : MonetRow} (numbered : Numbered row) (name : Text) :
    (∃ i, i < row.columns.length ∧ ColumnIndex.index name row = .ok i) ∨
      ColumnIndex.index name row = .error (.columnNotFound name) := by
  change (∃ i, i < row.columns.length ∧ indexStr name row = .ok i) ∨
    indexStr name row = .error (.columnNotFound name)
  unfold indexStr
  cases found : row.columns.find? fun column => column.name = name with
  | none => exact .inr rfl
  | some column =>
    have here := numbered column (List.mem_of_find?_eq_some found)
    exact .inl ⟨column.ordinal, (List.getElem?_eq_some_iff.mp here).1, rfl⟩

theorem indexStr_first {columns : List ColumnMeta} {values : List (Option Text)} {name : Text}
    {j : ℕ} (first : columns.findIdx? (fun c => c.name = name) = some j) :
    ColumnIndex.index name ⟨columns.mapIdx MonetColumn.fromMeta, values⟩ = .ok j := by
  obtain ⟨within, named, earlier⟩ := List.findIdx?_eq_some_iff_getElem.mp first
  have found : (columns.mapIdx MonetColumn.fromMeta).find? (fun c => c.name = name) =
      some (MonetColumn.fromMeta j columns[j]) := by
    rw [List.find?_eq_some_iff_getElem]
    refine ⟨named, j, by simpa using within, by simp, fun k less => ?_⟩
    simpa [MonetColumn.fromMeta] using earlier k less
  change indexStr name _ = _
  rw [indexStr, found]
  rfl

/-- A position panics exactly between the end of the values and the end of the columns. -/
theorem tryGetRaw_position_panics_iff (row : MonetRow) (i : ℕ) :
    tryGetRaw row i = .panicked ↔ row.values.length ≤ i ∧ i < row.columns.length := by
  by_cases inColumns : i < row.columns.length
  · have index := indexUsize_of_lt inColumns
    by_cases inValues : i < row.values.length
    · rw [tryGetRaw_of_index index inColumns inValues]
      simp only [reduceCtorEq, false_iff, not_and]
      omega
    · have absent : row.values[i]? = none := List.getElem?_eq_none (by omega)
      have panicked : tryGetRaw row i = .panicked := by simp [tryGetRaw, index, absent]
      exact ⟨fun _ => ⟨by omega, inColumns⟩, fun _ => panicked⟩
  · rw [tryGetRaw_of_error (indexUsize_of_le (by omega))]
    simp only [reduceCtorEq, false_iff, not_and]
    omega

end Access

section Shape

/-- Every value of the row has its column and the other way round, so that no access
panics and no received field is out of reach. -/
structure Rectangular (row : MonetRow) : Prop where
  same_length : row.values.length = row.columns.length
  by_position : ∀ i : ℕ, (∃ value, tryGetRaw row i = .returned (.ok value)) ∨
    tryGetRaw row i = .returned (.error (.columnIndexOutOfBounds i row.columns.length))
  by_name : ∀ name : Text, (∃ value, tryGetRaw row name = .returned (.ok value)) ∨
    tryGetRaw row name = .returned (.error (.columnNotFound name))
  reachable : ∀ (i : ℕ) (h : i < row.values.length), ∃ value,
    tryGetRaw row i = .returned (.ok value) ∧ value.data = row.values[i]

theorem rectangular_of_length {row : MonetRow} (numbered : Numbered row)
    (same : row.values.length = row.columns.length) : Rectangular row where
  same_length := same
  by_position i := by
    by_cases h : i < row.columns.length
    · exact .inl ⟨_, tryGetRaw_of_index (indexUsize_of_lt h) h (by omega)⟩
    · exact .inr (tryGetRaw_of_error (indexUsize_of_le (by omega)))
  by_name name := by
    rcases indexStr_cases numbered name with ⟨i, inColumns, index⟩ | absent
    · exact .inl ⟨_, tryGetRaw_of_index index inColumns (by omega)⟩
    · exact .inr (tryGetRaw_of_error absent)
  reachable i h := ⟨_, tryGetRaw_of_index (indexUsize_of_lt (by omega)) (by omega) h, rfl⟩

theorem rectangular_fromTableResult_iff (t : TableResult) :
    (∀ row ∈ fromTableResult t, Rectangular row) ↔
      ∀ fields ∈ t.rows, fields.length = t.columns.length := by
  constructor
  · intro h fields mem
    have row := h _ (List.mem_map.mpr ⟨fields, mem, rfl⟩)
    simpa using row.same_length
  · intro h row mem
    refine rectangular_of_length (numbered_of_mem_fromTableResult mem) ?_
    obtain ⟨fields, found, rfl⟩ := List.mem_map.mp mem
    simpa using h fields found

def RowsRectangular (text : Text) : Prop :=
  ∀ t, parseResponse text = .ok (.table t) → ∀ row ∈ fromTableResult t, Rectangular row

/-- A response yields rectangular rows exactly when, if it is accepted at all, each `[`
line of its last table has as many fields as the longest `%` line there has values. -/
theorem rowsRectangular_iff (text : Text) :
    RowsRectangular text ↔
      (allAcceptable false (lines text) = true → ∀ header after,
        lastSection (lines text) = some (header, after) →
          ∀ fields ∈ after.filterMap fields?, fields.length = headerWidth after) := by
  constructor
  · intro h accepted header after found
    obtain ⟨response, parsed⟩ := parseResponse_ok_iff.mpr accepted
    obtain ⟨t, rfl, read⟩ := (parseResponse_answers parsed).of_section found
    have lengths := (rectangular_fromTableResult_iff _).mp (h _ parsed)
    rwa [read.rows, read.width] at lengths
  · intro h t parsed
    obtain ⟨header, after, found, read⟩ := (parseResponse_answers parsed).of_table
    rw [rectangular_fromTableResult_iff, read.rows, read.width]
    exact h (parseResponse_ok_iff.mp ⟨_, parsed⟩) header after found

theorem short_row_panics :
    let text := "&1 0 1 2 1\n% a,\tb # name\n[ 1\t]".toList
    ¬ RowsRectangular text ∧ ∃ t row, parseResponse text = .ok (.table t) ∧
      row ∈ fromTableResult t ∧ tryGetRaw row 1 = .panicked := by
  intro text
  have parsed : parseResponse text = .ok (.table
      { queryId := 0, rowCount := 1, declaredColumns := 2, embeddedTuples := 1,
        columns := [⟨['a'], [], none, none⟩, ⟨['b'], [], none, none⟩], rows := [[some ['1']]] }) := by
    decide +kernel
  have panics := (tryGetRaw_position_panics_iff
    ⟨[⟨0, ['a'], .new []⟩, ⟨1, ['b'], .new []⟩], [some ['1']]⟩ 1).mpr (by decide)
  refine ⟨fun h => ?_, _, _, parsed, List.mem_singleton.mpr rfl, panics⟩
  have row := h _ parsed _ (List.mem_singleton.mpr rfl)
  exact absurd row.same_length (by decide)

end Shape

end SqlxMonetdb.Row
