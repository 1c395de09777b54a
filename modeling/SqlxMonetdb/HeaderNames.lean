import SqlxMonetdb.ResponseErrors
import SqlxMonetdb.ResponseRendering
import SqlxMonetdb.Row

set_option autoImplicit false

namespace SqlxMonetdb.HeaderNames
open ListSplitting TextPrimitives DriverError Response ResponseErrors ResponseRendering Row

section Reading

/-- The `%` line of the names, without its first character. -/
def namesLine (names : List Text) : Text := (headerLine "name".toList names).drop 1

def readHeader (t : TableResult) (rest : Text) : Except MonetError TableResult := do
  let (identity, values) ← parseHeaderValues rest
  applyHeaderValues t identity values

def Fresh (t : TableResult) : Prop := t.columns = [] ∧ t.rows = []

structure NamesColumns (names : List Text) : Prop where
  values : parseHeaderValues (namesLine names) = .ok ("name".toList, names)
  columns : ∀ t, Fresh t → ∃ t', readHeader t (namesLine names) = .ok t' ∧
    t'.columns.map (fun c => c.name) = names

/-- Value `j` of every row is found under name `j`. -/
def FoundByName (names : List Text) : Prop :=
  ∀ t t' rows, Fresh t → readHeader t (namesLine names) = .ok t' →
    ∀ row ∈ fromTableResult { t' with rows }, row.values.length = names.length →
      ∀ j (h : j < names.length), ∃ value, tryGetRaw row names[j] = .returned (.ok value) ∧
        row.values[j]? = some value.data

def named (name : Text) : ColumnMeta := { ColumnMeta.fresh with name }

theorem applyHeaderValues_names {t : TableResult} (fresh : Fresh t) (names : List Text) :
    applyHeaderValues t "name".toList names = .ok { t with columns := names.map named } := by
  have zipped := @zipColumns_map Text (fun col value => .ok { col with name := value })
    (fun _ => ColumnMeta.fresh) named id names fun _ _ => rfl
  rw [List.map_id] at zipped
  unfold applyHeaderValues
  rw [fresh.1, resizeColumns_nil, show headerAssignment "name".toList =
    some fun col value => .ok { col with name := value } from rfl]
  dsimp only
  rw [zipped]
  rfl

theorem namesColumns_iff {names : List Text} (nonempty : names ≠ [])
    (trimmed : ∀ n ∈ names, Trimmed isWhitespace n) (noNewline : ∀ n ∈ names, '\n' ∉ n) :
    NamesColumns names ↔ ∀ n ∈ names, ',' ∉ n := by
  constructor
  · intro h n hn comma
    obtain ⟨front, back, -, -, -, values⟩ := parseHeaderValues_ok_iff.mp h.values
    rw [values] at hn
    obtain ⟨piece, mem, rfl⟩ := List.mem_map.mp hn
    exact not_mem_of_mem_splitOn mem (mem_of_mem_trimBy comma)
  · intro noComma
    have values : parseHeaderValues (namesLine names) = .ok ("name".toList, names) :=
      parseHeaderValues_headerLine (by decide) (by decide) nonempty
        fun n hn => ⟨noComma n hn, noNewline n hn, trimmed n hn⟩
    refine ⟨values, fun t fresh => ⟨{ t with columns := names.map named }, ?_, ?_⟩⟩
    · rw [readHeader, values]
      exact applyHeaderValues_names fresh names
    · rw [List.map_map]
      exact List.map_id names

end Reading

section Lookup

theorem index_name {names : List Text} {t : TableResult}
    (columns : t.columns.map (fun c => c.name) = names) {row : MonetRow}
    (mem : row ∈ fromTableResult t) {j : ℕ} (h : j < names.length) :
    ColumnIndex.index names[j] row = .ok (names.idxOf names[j]) := by
  obtain ⟨values, -, rfl⟩ := List.mem_map.mp mem
  apply indexStr_first
  have among : names[j] ∈ names := List.getElem_mem h
  generalize names[j] = name at among ⊢
  subst columns
  have same : List.findIdx (fun c => c.name = name) t.columns =
      (t.columns.map fun c => c.name).idxOf name := by
    rw [List.idxOf, List.findIdx_map]
    simp only [Function.comp_def, beq_eq_decide]
  rw [List.findIdx?_eq_some_iff_findIdx_eq, same]
  exact ⟨by simpa using List.idxOf_lt_length_of_mem among, rfl⟩

theorem tryGetRaw_name {names : List Text} {t : TableResult}
    (columns : t.columns.map (fun c => c.name) = names) {row : MonetRow}
    (mem : row ∈ fromTableResult t) (full : row.values.length = names.length) {j : ℕ}
    (h : j < names.length) : ∃ value, tryGetRaw row names[j] = .returned (.ok value) ∧
      row.values[names.idxOf names[j]]? = some value.data := by
  have index := index_name columns mem h
  have first : names.idxOf names[j] < names.length :=
    List.idxOf_lt_length_of_mem (List.getElem_mem h)
  have inValues : names.idxOf names[j] < row.values.length := by omega
  have inColumns : names.idxOf names[j] < row.columns.length := by
    obtain ⟨values, -, rfl⟩ := List.mem_map.mp mem
    have sized := congrArg List.length columns
    simp only [List.length_map] at sized
    simpa only [List.length_mapIdx, sized] using first
  exact ⟨_, tryGetRaw_of_index index inColumns inValues, List.getElem?_eq_getElem inValues⟩

theorem foundByName_iff {names : List Text} (h : NamesColumns names) :
    FoundByName names ↔ names.Nodup := by
  constructor
  · intro found
    -- a row whose values tell position `j` from all others
    have own (j : ℕ) (hj : j < names.length) : names.idxOf names[j] = j := by
      let marks : List (Option Text) := (List.range names.length).map fun i =>
        if i = j then some [] else none
      obtain ⟨t, read, columns⟩ := h.columns ⟨0, 0, 0, 0, [], []⟩ ⟨rfl, rfl⟩
      have mem : ⟨t.columns.mapIdx MonetColumn.fromMeta, marks⟩ ∈
          fromTableResult { t with rows := [marks] } := List.mem_singleton.mpr rfl
      have full : marks.length = names.length := by simp [marks]
      obtain ⟨value, got, here⟩ := found _ t [marks] ⟨rfl, rfl⟩ read _ mem full j hj
      obtain ⟨value', got', there⟩ := @tryGetRaw_name names { t with rows := [marks] } columns _ mem full j hj
      obtain rfl : value = value' := by simpa [got] using got'
      have first : names.idxOf names[j] < names.length :=
        List.idxOf_lt_length_of_mem (List.getElem_mem hj)
      have marked := there.trans here.symm
      by_contra other
      simp [marks, first, hj, other] at marked
    rw [List.nodup_iff_injective_get]
    intro i j same
    have equal : names[i.val] = names[j.val] := same
    have hi := own i i.isLt
    have hj := own j j.isLt
    rw [equal, hj] at hi
    exact Fin.ext hi.symm
  · intro nodup t t' rows fresh read row mem full j hj
    obtain ⟨u, read', columns⟩ := h.columns t fresh
    obtain rfl : t' = u := Except.ok.inj (read.symm.trans read')
    have found := @tryGetRaw_name names { t' with rows } columns row mem full j hj
    rwa [nodup.idxOf_getElem j hj] at found

/-- The names of a header line reach the columns exactly when none contains a comma, and
the values are found under them exactly when, besides, no two are equal. -/
theorem names_iff {names : List Text} (nonempty : names ≠ [])
    (noNewline : ∀ n ∈ names, '\n' ∉ n) (trimmed : ∀ n ∈ names, Trimmed isWhitespace n) :
    (NamesColumns names ↔ ∀ n ∈ names, ',' ∉ n) ∧
    (NamesColumns names ∧ FoundByName names ↔ (∀ n ∈ names, ',' ∉ n) ∧ names.Nodup) := by
  have columns := namesColumns_iff nonempty trimmed noNewline
  refine ⟨columns, ?_⟩
  rw [← columns]
  exact and_congr_right foundByName_iff

theorem names_hash :
    NamesColumns ["a#b".toList, "c".toList] ∧ FoundByName ["a#b".toList, "c".toList] :=
  (@names_iff ["a#b".toList, "c".toList] (by decide) (by decide) (by decide)).2.mpr
    (by decide)

theorem comma_splits_name :
    let names := ["a,b".toList, "c".toList]
    parseHeaderValues (namesLine names) =
        .ok ("name".toList, ["a".toList, "b".toList, "c".toList]) ∧
      ¬ NamesColumns names := by
  intro names
  have read : parseHeaderValues (namesLine names) =
      .ok ("name".toList, ["a".toList, "b".toList, "c".toList]) := by decide
  refine ⟨read, fun h => ?_⟩
  have values := h.values
  rw [read] at values
  exact absurd values (by decide)

end Lookup

end SqlxMonetdb.HeaderNames
