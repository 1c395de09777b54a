import SqlxMonetdb.LabelledRuns
import SqlxMonetdb.Response

set_option autoImplicit false

namespace SqlxMonetdb.ResponseLines
open TextPrimitives DriverError Response LabelledRuns

def lines (text : Text) : List Text := text.splitOn '\n'

section Effects

inductive LineEffect where
  | skip
  | opens (table : TableResult)
  | finishes (result : QueryResponse)
  | columns (identity : Text) (values : List Text)
  | row (fields : List (Option Text))
  deriving DecidableEq

/-- The part of `parseLine` that does not look at the slots. -/
def readLine (line : Text) : Except ResponseError LineEffect :=
  match lineKind line with
  | .blank => .ok .skip
  | .error message => .error (.database ⟨message⟩)
  | .info => .ok .skip
  | .table rest => ((parseTableHeader rest).mapError .protocol).map .opens
  | .update rest => ((parseUpdateLine rest).mapError .protocol).map .finishes
  | .schema => .ok (.finishes .schema)
  | .transaction => ((parseTransactionLine line).mapError .protocol).map .finishes
  | .header rest => ((parseHeaderValues rest).mapError .protocol).map fun (identity, values) =>
    .columns identity values
  | .tuple rest => ((parseTupleFields rest).mapError .protocol).map .row
  | .unrecognized => .error (.protocol (.protocol
      [.text "unrecognized response line: ", .debug line]))

def LineEffect.apply (slots : Slots) (line : Text) : LineEffect → Except ResponseError Slots
  | .skip => .ok slots
  | .opens table => .ok { slots with table := some table }
  | .finishes result => .ok { slots with result := some result }
  | .columns identity values => do
    let table ← openTable slots "'%' line before '&1': " line
    let table ← (applyHeaderValues table identity values).mapError .protocol
    .ok { slots with table := some table }
  | .row fields => do
    let table ← openTable slots "'[' line before '&1': " line
    .ok { slots with table := some { table with rows := table.rows ++ [fields] } }

theorem parseLine_eq (slots : Slots) (line : Text) :
    parseLine slots line = (readLine line).bind fun effect => effect.apply slots line := by
  unfold parseLine readLine
  cases lineKind line with
  | table rest =>
    dsimp only
    cases parseTableHeader rest <;> rfl
  | update rest =>
    dsimp only
    cases parseUpdateLine rest <;> rfl
  | transaction =>
    dsimp only
    cases parseTransactionLine line <;> rfl
  | header rest =>
    dsimp only
    cases parseHeaderValues rest <;> rfl
  | tuple rest =>
    dsimp only
    cases parseTupleFields rest <;> rfl
  | _ => rfl

theorem parseLine_of_readLine {line : Text} {effect : LineEffect} (h : readLine line = .ok effect)
    (slots : Slots) : parseLine slots line = effect.apply slots line := by
  rw [parseLine_eq, h]
  rfl

theorem readLine_of_parseLine {slots slots' : Slots} {line : Text}
    (h : parseLine slots line = .ok slots') :
    ∃ effect, readLine line = .ok effect ∧ effect.apply slots line = .ok slots' := by
  rw [parseLine_eq] at h
  cases read : readLine line with
  | error e =>
    rw [read] at h
    cases h
  | ok effect =>
    rw [read] at h
    exact ⟨effect, rfl, h⟩

end Effects

section Columns

theorem resizeColumns_length (columns : List ColumnMeta) (len : ℕ) :
    (resizeColumns columns len).length = max columns.length len := by
  unfold resizeColumns
  split
  · simp only [List.length_append, List.length_replicate]
    omega
  · omega

theorem zipColumns_length {assign : ColumnMeta → Text → Except MonetError ColumnMeta}
    {columns columns' : List ColumnMeta} {values : List Text}
    (h : zipColumns assign columns values = .ok columns') : columns'.length = columns.length := by
  induction columns generalizing columns' values with
  | nil =>
    rw [zipColumns] at h
    · cases h
      rfl
    · simp
  | cons col columns ih =>
    cases values with
    | nil =>
      cases h
      rfl
    | cons value values =>
      simp only [zipColumns, bind_eq_ok] at h
      obtain ⟨col', -, rest, zipped, built⟩ := h
      cases built
      simp [ih zipped]

theorem applyHeaderValues_ok {t t' : TableResult} {identity : Text} {values : List Text}
    (h : applyHeaderValues t identity values = .ok t') :
    ∃ columns, t' = { t with columns } ∧ columns.length = max t.columns.length values.length := by
  unfold applyHeaderValues at h
  dsimp only at h
  split at h
  · obtain ⟨columns, zipped, rfl⟩ := map_eq_ok.mp h
    exact ⟨columns, rfl, by rw [zipColumns_length zipped, resizeColumns_length]⟩
  · cases h

theorem headerAssignment_isOk {identity : Text}
    {assign : ColumnMeta → Text → Except MonetError ColumnMeta}
    (known : headerAssignment identity = some assign) (col : ColumnMeta) (value : Text) :
    (assign col value).isOk = (assign .fresh value).isOk := by
  unfold headerAssignment at known
  split_ifs at known <;> obtain rfl := Option.some.inj known
  · rfl
  · rfl
  · cases h : parseTypesizesValue value <;> simp only [h] <;> rfl
  · cases h : parseLengthValue value <;> simp only [h] <;> rfl
  · rfl

def valuesFit (identity : Text) (values : List Text) : Bool :=
  match headerAssignment identity with
  | some assign => values.all fun value => (assign .fresh value).isOk
  | none => false

theorem zipColumns_isOk {assign : ColumnMeta → Text → Except MonetError ColumnMeta}
    (same : ∀ col value, (assign col value).isOk = (assign .fresh value).isOk)
    (columns : List ColumnMeta) (values : List Text) (long : values.length ≤ columns.length) :
    (zipColumns assign columns values).isOk =
      values.all fun value => (assign .fresh value).isOk := by
  induction values generalizing columns with
  | nil => cases columns <;> rfl
  | cons value values ih =>
    cases columns with
    | nil => simp at long
    | cons col columns =>
      have rest := ih columns (by simpa using long)
      rw [zipColumns, List.all_cons, ← same col value, ← rest]
      cases assign col value with
      | error e => rfl
      | ok col' => cases zipColumns assign columns values <;> rfl

theorem applyHeaderValues_isOk (t : TableResult) (identity : Text) (values : List Text) :
    (applyHeaderValues t identity values).isOk = valuesFit identity values := by
  unfold applyHeaderValues valuesFit
  dsimp only
  cases known : headerAssignment identity with
  | none => rfl
  | some assign =>
    have long : values.length ≤ (resizeColumns t.columns values.length).length := by
      rw [resizeColumns_length]
      omega
    have zipped := zipColumns_isOk (headerAssignment_isOk known) _ values long
    dsimp only
    rw [← zipped]
    cases zipColumns assign (resizeColumns t.columns values.length) values <;> rfl

end Columns

section Acceptance

def opened? (line : Text) : Option TableResult :=
  match readLine line with
  | .ok (.opens table) => some table
  | _ => none

def finished? (line : Text) : Option QueryResponse :=
  match readLine line with
  | .ok (.finishes result) => some result
  | _ => none

def headerValues? (line : Text) : Option (List Text) :=
  match readLine line with
  | .ok (.columns _ values) => some values
  | _ => none

def fields? (line : Text) : Option (List (Option Text)) :=
  match readLine line with
  | .ok (.row fields) => some fields
  | _ => none

/-- A line is acceptable by its own text and by whether some line before it opened a
table; nothing else in the slots matters. -/
def acceptable (hasTable : Bool) (line : Text) : Bool :=
  match readLine line with
  | .error _ => false
  | .ok (.columns identity values) => hasTable && valuesFit identity values
  | .ok (.row _) => hasTable
  | .ok _ => true

def allAcceptable : Bool → List Text → Bool
  | _, [] => true
  | hasTable, line :: rest =>
    acceptable hasTable line && allAcceptable (hasTable || (opened? line).isSome) rest

theorem parseLine_isOk (slots : Slots) (line : Text) :
    (parseLine slots line).isOk = acceptable slots.table.isSome line := by
  unfold acceptable
  cases read : readLine line with
  | error e =>
    rw [parseLine_eq, read]
    rfl
  | ok effect =>
    rw [parseLine_of_readLine read]
    cases effect with
    | columns identity values =>
      cases table : slots.table with
      | none => simp [LineEffect.apply, openTable, table, bind, Except.bind, Except.isOk, Except.toBool]
      | some t =>
        simp only [LineEffect.apply, openTable, table, bind, Except.bind, Option.isSome_some,
          Bool.true_and, ← applyHeaderValues_isOk t identity values]
        cases applyHeaderValues t identity values <;> rfl
    | row fields =>
      cases table : slots.table <;>
        simp [LineEffect.apply, openTable, table, bind, Except.bind, Except.isOk, Except.toBool]
    | _ => rfl

theorem exists_parseLine_iff (slots : Slots) (line : Text) :
    (∃ slots', parseLine slots line = .ok slots') ↔ acceptable slots.table.isSome line = true := by
  rw [← parseLine_isOk]
  cases parseLine slots line <;> simp [Except.isOk, Except.toBool]

theorem openTable_ok {slots : Slots} {what : String} {line : Text} {t : TableResult}
    (h : openTable slots what line = .ok t) : slots.table = some t := by
  unfold openTable at h
  split at h
  · rename_i found
    cases h
    exact found
  · cases h

theorem parseLine_cases {slots slots' : Slots} {line : Text}
    (h : parseLine slots line = .ok slots') :
    (∃ t, readLine line = .ok (.opens t) ∧ slots' = { slots with table := some t }) ∨
    (∃ r, readLine line = .ok (.finishes r) ∧ slots' = { slots with result := some r }) ∨
    (∃ identity values t columns, readLine line = .ok (.columns identity values) ∧
      slots.table = some t ∧ columns.length = max t.columns.length values.length ∧
      slots' = { slots with table := some { t with columns } }) ∨
    (∃ fields t, readLine line = .ok (.row fields) ∧ slots.table = some t ∧
      slots' = { slots with table := some { t with rows := t.rows ++ [fields] } }) ∨
    (readLine line = .ok .skip ∧ slots' = slots) := by
  obtain ⟨effect, read, applied⟩ := readLine_of_parseLine h
  cases effect with
  | skip =>
    cases applied
    exact .inr (.inr (.inr (.inr ⟨read, rfl⟩)))
  | opens t =>
    cases applied
    exact .inl ⟨t, read, rfl⟩
  | finishes r =>
    cases applied
    exact .inr (.inl ⟨r, read, rfl⟩)
  | columns identity values =>
    simp only [LineEffect.apply, bind_eq_ok, mapError_eq_ok] at applied
    obtain ⟨t, opened, t', changed, built⟩ := applied
    obtain ⟨columns, rfl, length⟩ := applyHeaderValues_ok changed
    cases built
    exact .inr (.inr (.inl ⟨identity, values, t, columns, read, openTable_ok opened, length, rfl⟩))
  | row fields =>
    simp only [LineEffect.apply, bind_eq_ok] at applied
    obtain ⟨t, opened, built⟩ := applied
    cases built
    exact .inr (.inr (.inr (.inl ⟨fields, t, read, openTable_ok opened, rfl⟩)))

theorem table_isSome_of_parseLine {slots slots' : Slots} {line : Text}
    (h : parseLine slots line = .ok slots') :
    slots'.table.isSome = (slots.table.isSome || (opened? line).isSome) := by
  obtain ⟨t, read, rfl⟩ | ⟨r, read, rfl⟩ | ⟨identity, values, t, columns, read, table, -, rfl⟩ |
    ⟨fields, t, read, table, rfl⟩ | ⟨read, rfl⟩ := parseLine_cases h
  all_goals simp [opened?, *]

theorem accepts_iff_allAcceptable {slots : Slots} {lines : List Text} :
    (∃ slots', Runs (accepts parseLine) slots lines slots') ↔
      allAcceptable slots.table.isSome lines = true := by
  induction lines generalizing slots with
  | nil => simp [allAcceptable, Runs.nil_iff]
  | cons line lines ih =>
    rw [allAcceptable, Bool.and_eq_true, ← exists_parseLine_iff]
    constructor
    · rintro ⟨last, run⟩
      obtain ⟨next, first, tail⟩ := Runs.cons_iff.mp run
      rw [← table_isSome_of_parseLine first]
      exact ⟨⟨next, first⟩, ih.mp ⟨last, tail⟩⟩
    · rintro ⟨⟨next, first⟩, rest⟩
      rw [← table_isSome_of_parseLine first] at rest
      obtain ⟨last, tail⟩ := ih.mpr rest
      exact ⟨last, .next first tail⟩

end Acceptance

section Sections

/-- The last line that opens a table, as parsed, and the lines after it. -/
def lastSection : List Text → Option (TableResult × List Text)
  | [] => none
  | line :: rest => (lastSection rest).or ((opened? line).map fun header => (header, rest))

/-- The number of columns the `%` lines ask for: the most values on one of them. -/
def headerWidth (lines : List Text) : ℕ :=
  (lines.filterMap headerValues?).foldl (fun width values => max width values.length) 0

theorem lastSection_concat (lines : List Text) (line : Text) :
    lastSection (lines ++ [line]) =
      match opened? line with
      | some header => some (header, [])
      | none => (lastSection lines).map fun (header, after) => (header, after ++ [line]) := by
  induction lines with
  | nil => cases h : opened? line <;> simp [lastSection, h]
  | cons first lines ih =>
    rw [List.cons_append, lastSection, ih]
    cases h : opened? line with
    | some header => simp
    | none =>
      dsimp only
      rw [lastSection]
      cases lastSection lines <;> cases opened? first <;> simp

theorem headerWidth_concat (lines : List Text) (line : Text) :
    headerWidth (lines ++ [line]) =
      match headerValues? line with
      | some values => max (headerWidth lines) values.length
      | none => headerWidth lines := by
  unfold headerWidth
  rw [List.filterMap_append, List.foldl_append]
  cases h : headerValues? line <;> simp [h]

/-- `t` is the table that `header` opened and the lines `after` filled in. -/
structure OpenTable (header : TableResult) (after : List Text) (t : TableResult) : Prop where
  numbers : { t with columns := [], rows := [] } = header
  rows : t.rows = after.filterMap fields?
  width : t.columns.length = headerWidth after

/-- The slots after the lines `past`. -/
structure Filled (past : List Text) (slots : Slots) : Prop where
  table : Option.Rel (fun opened t => OpenTable opened.1 opened.2 t) (lastSection past) slots.table
  result : slots.result = (past.filterMap finished?).getLast?

theorem filled_nil : Filled [] ⟨none, none⟩ := ⟨.none, rfl⟩

theorem parseTableHeader_empty {rest : Text} {t : TableResult} (h : parseTableHeader rest = .ok t) :
    t.columns = [] ∧ t.rows = [] := by
  unfold parseTableHeader at h
  split at h
  · simp only [bind_eq_ok] at h
    obtain ⟨queryId, -, rowCount, -, declaredColumns, -, embeddedTuples, -, built⟩ := h
    cases built
    exact ⟨rfl, rfl⟩
  · cases h

theorem openTable_of_opened {line : Text} {t : TableResult} (h : readLine line = .ok (.opens t)) :
    OpenTable t [] t := by
  unfold readLine at h
  split at h <;> simp [map_eq_ok, mapError_eq_ok] at h
  rename_i rest _
  obtain ⟨columns, rows⟩ := parseTableHeader_empty h
  refine ⟨?_, rows, ?_⟩
  · rw [← columns, ← rows]
  · rw [columns]
    rfl

variable {header t : TableResult} {after past : List Text} {line : Text}

theorem OpenTable.addColumns (before : OpenTable header after t) {identity : Text}
    {values : List Text} (read : readLine line = .ok (.columns identity values))
    {columns : List ColumnMeta} (length : columns.length = max t.columns.length values.length) :
    OpenTable header (after ++ [line]) { t with columns } where
  numbers := before.numbers
  rows := by simp [before.rows, fields?, read]
  width := by
    have found : headerValues? line = some values := by simp [headerValues?, read]
    rw [headerWidth_concat, found]
    simp only [length, before.width]

theorem OpenTable.addRow (before : OpenTable header after t) {fields : List (Option Text)}
    (read : readLine line = .ok (.row fields)) :
    OpenTable header (after ++ [line]) { t with rows := t.rows ++ [fields] } where
  numbers := before.numbers
  rows := by simp [before.rows, fields?, read]
  width := by
    have absent : headerValues? line = none := by simp [headerValues?, read]
    rw [headerWidth_concat, absent]
    exact before.width

theorem OpenTable.frame (before : OpenTable header after t) (noFields : fields? line = none)
    (noValues : headerValues? line = none) : OpenTable header (after ++ [line]) t where
  numbers := before.numbers
  rows := by simp [before.rows, noFields]
  width := by
    rw [headerWidth_concat, noValues]
    exact before.width

theorem Filled.keep {slots slots' : Slots} (filled : Filled past slots) (line : Text)
    (notOpened : opened? line = none) (change : TableResult → TableResult)
    (table : slots'.table = slots.table.map change)
    (result : slots'.result = (finished? line).or slots.result)
    (each : ∀ header after t, slots.table = some t → OpenTable header after t →
      OpenTable header (after ++ [line]) (change t)) : Filled (past ++ [line]) slots' where
  table := by
    have related := filled.table
    rw [lastSection_concat, notOpened, table]
    cases found : lastSection past with
    | none =>
      cases slot : slots.table with
      | none => exact .none
      | some t =>
        rw [found, slot] at related
        cases related
    | some opened =>
      cases slot : slots.table with
      | none =>
        rw [found, slot] at related
        cases related
      | some t =>
        rw [found, slot] at related
        cases related with
        | some before => exact .some (each _ _ t slot before)
  result := by
    rw [result, filled.result]
    cases h : finished? line <;> simp [h]

theorem filled_keep (past : List Text) (line : Text) (slots slots' : Slots)
    (filled : Filled past slots) (h : parseLine slots line = .ok slots') :
    Filled (past ++ [line]) slots' := by
  obtain ⟨t, read, rfl⟩ | ⟨r, read, rfl⟩ | ⟨identity, values, t, columns, read, table, length, rfl⟩ |
    ⟨fields, t, read, table, rfl⟩ | ⟨read, rfl⟩ := parseLine_cases h
  · refine ⟨?_, ?_⟩
    · have found : opened? line = some t := by simp [opened?, read]
      rw [lastSection_concat, found]
      exact .some (openTable_of_opened read)
    · simp [filled.result, finished?, read]
  · refine filled.keep line (by simp [opened?, read]) id (by simp) (by simp [finished?, read]) ?_
    intro header after t _ before
    exact before.frame (by simp [fields?, read]) (by simp [headerValues?, read])
  · refine filled.keep line (by simp [opened?, read]) (fun t => { t with columns })
      (by simp [table]) (by simp [finished?, read]) ?_
    intro header after u found before
    obtain rfl : t = u := by simpa [table] using found
    exact before.addColumns read length
  · refine filled.keep line (by simp [opened?, read])
      (fun t => { t with rows := t.rows ++ [fields] }) (by simp [table])
      (by simp [finished?, read]) ?_
    intro header after t _ before
    exact before.addRow read
  · refine filled.keep line (by simp [opened?, read]) id (by simp) (by simp [finished?, read]) ?_
    intro header after t _ before
    exact before.frame (by simp [fields?, read]) (by simp [headerValues?, read])

theorem filled_of_run {past : List Text} {slots : Slots}
    (run : Runs (accepts parseLine) ⟨none, none⟩ past slots) : Filled past slots := by
  simpa using Runs.history filled_keep [] filled_nil run

/-- What an accepted response answers, read off its lines. -/
inductive Answers (lines : List Text) : QueryResponse → Prop where
  | table {header : TableResult} {after : List Text} {t : TableResult}
      (found : lastSection lines = some (header, after)) (read : OpenTable header after t) :
      Answers lines (.table t)
  | result (absent : lastSection lines = none) :
      Answers lines ((lines.filterMap finished?).getLast?.getD .ok)

theorem Filled.answers {slots : Slots} (filled : Filled past slots) :
    Answers past slots.response := by
  have related := filled.table
  cases section_eq : lastSection past with
  | none =>
    rw [section_eq] at related
    cases table : slots.table with
    | none =>
      rw [Slots.response, table, filled.result]
      exact .result section_eq
    | some t =>
      rw [table] at related
      cases related
  | some opened =>
    rw [section_eq] at related
    cases table : slots.table with
    | none =>
      rw [table] at related
      cases related
    | some t =>
      rw [table] at related
      cases related with
      | some read =>
        rw [Slots.response, table]
        exact .table section_eq read

theorem parseUpdateLine_ok {rest : Text} {r : QueryResponse} (h : parseUpdateLine rest = .ok r) :
    ∃ affected lastInsertId, r = .update affected lastInsertId := by
  unfold parseUpdateLine at h
  split at h
  · cases h
  · rw [bind_eq_ok] at h
    obtain ⟨affected, -, h⟩ := h
    refine ⟨affected, ?_⟩
    split at h
    · cases h
      exact ⟨_, rfl⟩
    · split_ifs at h
      · cases h
        exact ⟨_, rfl⟩
      · obtain ⟨lastInsertId, -, built⟩ := bind_eq_ok.mp h
        cases built
        exact ⟨_, rfl⟩

theorem parseTransactionLine_ok {r : QueryResponse} (h : parseTransactionLine line = .ok r) :
    ∃ autoCommit, r = .transaction autoCommit := by
  unfold parseTransactionLine at h
  split at h
  · cases h
  · split_ifs at h <;> cases h
    · exact ⟨true, rfl⟩
    · exact ⟨false, rfl⟩

theorem finished?_ne_table {r : QueryResponse} (h : finished? line = some r) (t : TableResult) :
    r ≠ .table t := by
  unfold finished? at h
  split at h
  · rename_i read
    cases h
    unfold readLine at read
    split at read <;> simp [map_eq_ok, mapError_eq_ok] at read
    · obtain ⟨_, _, rfl⟩ := parseUpdateLine_ok read
      exact QueryResponse.noConfusion
    · subst read
      exact QueryResponse.noConfusion
    · obtain ⟨_, rfl⟩ := parseTransactionLine_ok read
      exact QueryResponse.noConfusion
  · cases h

theorem Answers.of_table (h : Answers past (.table t)) :
    ∃ header after, lastSection past = some (header, after) ∧ OpenTable header after t := by
  generalize answered : QueryResponse.table t = response at h
  cases h with
  | @table header after t' found read =>
    cases answered
    exact ⟨header, after, found, read⟩
  | result absent =>
    cases last : (past.filterMap finished?).getLast? with
    | none =>
      rw [last] at answered
      cases answered
    | some r =>
      rw [last] at answered
      obtain ⟨line, -, finished⟩ := List.mem_filterMap.mp (List.mem_of_getLast? last)
      exact absurd answered.symm (finished?_ne_table finished t)

theorem Answers.of_section {response : QueryResponse} (h : Answers past response)
    (found : lastSection past = some (header, after)) :
    ∃ t, response = .table t ∧ OpenTable header after t := by
  cases h with
  | table found' read =>
    rw [found] at found'
    cases found'
    exact ⟨_, rfl, read⟩
  | result absent =>
    rw [absent] at found
    cases found

theorem parseResponse_answers {text : Text} {response : QueryResponse}
    (h : parseResponse text = .ok response) : Answers (lines text) response := by
  rw [parseResponse, bind_eq_ok] at h
  obtain ⟨slots, folded, built⟩ := h
  cases built
  exact (filled_of_run (foldlM_ok_iff.mp folded)).answers

theorem parseResponse_ok_iff {text : Text} :
    (∃ response, parseResponse text = .ok response) ↔ allAcceptable false (lines text) = true := by
  rw [show false = (⟨none, none⟩ : Slots).table.isSome from rfl, ← accepts_iff_allAcceptable]
  constructor
  · rintro ⟨response, h⟩
    rw [parseResponse, bind_eq_ok] at h
    obtain ⟨slots, folded, -⟩ := h
    exact ⟨slots, foldlM_ok_iff.mp folded⟩
  · rintro ⟨slots, run⟩
    refine ⟨slots.response, ?_⟩
    rw [parseResponse, bind_eq_ok]
    exact ⟨slots, foldlM_ok_iff.mpr run, rfl⟩

end Sections

end SqlxMonetdb.ResponseLines
