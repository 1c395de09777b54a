import SqlxMonetdb.ResponseErrors

set_option autoImplicit false

namespace SqlxMonetdb.TableLines
open ListSplitting TextPrimitives DriverError Response ResponseLines ResponseErrors LabelledRuns
open Rearrangement

section Columns

/-- What a header line of the identity writes into the column of one of its values. -/
inductive Writes (identity value : Text) : (ColumnMeta → ColumnMeta) → Prop where
  | name (h : identity = "name".toList) : Writes identity value fun c => { c with name := value }
  | type (h : identity = "type".toList) :
      Writes identity value fun c => { c with typeName := value }
  | typesizes (h : identity = "typesizes".toList) {n : Option (UInt64 × Option UInt64)}
      (read : parseTypesizesValue value = .ok n) :
      Writes identity value fun c => { c with typesizes := n }
  | length (h : identity = "length".toList) {n : Option UInt64}
      (read : parseLengthValue value = .ok n) :
      Writes identity value fun c => { c with length := n }
  | tableName (h : identity = "table_name".toList) : Writes identity value id

def writeColumns : List (ColumnMeta → ColumnMeta) → List ColumnMeta → List ColumnMeta
  | [], columns => columns
  | w :: ws, [] => w .fresh :: writeColumns ws []
  | w :: ws, c :: columns => w c :: writeColumns ws columns

theorem Writes.comm {identity identity' value value' : Text} {w w' : ColumnMeta → ColumnMeta}
    (h : Writes identity value w) (h' : Writes identity' value' w') (other : identity ≠ identity')
    (c : ColumnMeta) : w (w' c) = w' (w c) := by
  cases h with
  | name here => cases h' with
    | name there => exact absurd (here.trans there.symm) other
    | _ => rfl
  | type here => cases h' with
    | type there => exact absurd (here.trans there.symm) other
    | _ => rfl
  | typesizes here => cases h' with
    | typesizes there => exact absurd (here.trans there.symm) other
    | _ => rfl
  | length here => cases h' with
    | length there => exact absurd (here.trans there.symm) other
    | _ => rfl
  | tableName => rfl

theorem writeColumns_comm {ws vs : List (ColumnMeta → ColumnMeta)}
    (comm : ∀ w ∈ ws, ∀ v ∈ vs, ∀ c, w (v c) = v (w c)) (columns : List ColumnMeta) :
    writeColumns ws (writeColumns vs columns) = writeColumns vs (writeColumns ws columns) := by
  induction ws generalizing vs columns with
  | nil => rfl
  | cons w ws ih =>
    cases vs with
    | nil => rfl
    | cons v vs =>
      have head := comm w (by simp) v (by simp)
      have rest (columns : List ColumnMeta) :
          writeColumns ws (writeColumns vs columns) = writeColumns vs (writeColumns ws columns) :=
        ih (fun w' hw v' hv => comm w' (by simp [hw]) v' (by simp [hv])) columns
      cases columns with
      | nil => simp only [writeColumns, head, rest]
      | cons c columns => simp only [writeColumns, head, rest]

theorem Writes.assigned {identity value : Text} {w : ColumnMeta → ColumnMeta}
    (h : Writes identity value w) :
    ∃ assign, headerAssignment identity = some assign ∧ ∀ c, assign c value = .ok (w c) := by
  cases h with
  | name h =>
    subst h
    exact ⟨_, rfl, fun _ => rfl⟩
  | type h =>
    subst h
    exact ⟨_, rfl, fun _ => rfl⟩
  | typesizes h read =>
    subst h
    exact ⟨_, rfl, fun c => map_eq_ok.mpr ⟨_, read, rfl⟩⟩
  | length h read =>
    subst h
    exact ⟨_, rfl, fun c => map_eq_ok.mpr ⟨_, read, rfl⟩⟩
  | tableName h =>
    subst h
    exact ⟨_, rfl, fun _ => rfl⟩

theorem headerAssignment_writes {identity : Text}
    {assign : ColumnMeta → Text → Except MonetError ColumnMeta}
    (known : headerAssignment identity = some assign) {c c' : ColumnMeta} {value : Text} :
    assign c value = .ok c' ↔ ∃ w, Writes identity value w ∧ c' = w c := by
  constructor
  · intro assigned
    unfold headerAssignment at known
    split_ifs at known with name type typesizes length tableName <;>
      obtain rfl := Option.some.inj known
    · exact ⟨_, .name name, (Except.ok.inj assigned).symm⟩
    · exact ⟨_, .type type, (Except.ok.inj assigned).symm⟩
    · obtain ⟨n, read, rfl⟩ := map_eq_ok.mp assigned
      exact ⟨_, .typesizes typesizes read, rfl⟩
    · obtain ⟨n, read, rfl⟩ := map_eq_ok.mp assigned
      exact ⟨_, .length length read, rfl⟩
    · exact ⟨_, .tableName tableName, (Except.ok.inj assigned).symm⟩
  · rintro ⟨w, written, rfl⟩
    obtain ⟨assign', known', assigned⟩ := written.assigned
    obtain rfl : assign = assign' := Option.some.inj (known.symm.trans known')
    exact assigned c

theorem columns_front (columns : List ColumnMeta) (n : ℕ) :
    ∃ c rest, resizeColumns columns (n + 1) = c :: resizeColumns rest n ∧
      ∀ w ws, writeColumns (w :: ws) columns = w c :: writeColumns ws rest := by
  cases columns with
  | nil =>
    refine ⟨.fresh, [], ?_, fun _ _ => rfl⟩
    cases n <;> rfl
  | cons c rest =>
    refine ⟨c, rest, ?_, fun _ _ => rfl⟩
    unfold resizeColumns
    simp only [List.length_cons, Nat.add_lt_add_iff_right, Nat.add_sub_add_right]
    split <;> rfl

theorem zipColumns_writes {identity : Text}
    {assign : ColumnMeta → Text → Except MonetError ColumnMeta}
    (known : headerAssignment identity = some assign) {columns columns' : List ColumnMeta}
    {values : List Text} :
    zipColumns assign (resizeColumns columns values.length) values = .ok columns' ↔
      ∃ ws, List.Forall₂ (Writes identity) values ws ∧ columns' = writeColumns ws columns := by
  induction values generalizing columns columns' with
  | nil =>
    have unchanged : zipColumns assign (resizeColumns columns 0) [] = .ok columns := by
      cases columns <;> rfl
    simp [unchanged, writeColumns, eq_comm]
  | cons value values ih =>
    obtain ⟨c, rest, resized, written⟩ := columns_front columns values.length
    rw [List.length_cons, resized]
    simp only [zipColumns, bind_eq_ok, headerAssignment_writes known, ih]
    constructor
    · rintro ⟨_, ⟨w, head, rfl⟩, _, ⟨ws, tail, rfl⟩, done⟩
      refine ⟨w :: ws, .cons head tail, ?_⟩
      rw [written]
      exact (Except.ok.inj done).symm
    · rintro ⟨_, all, rfl⟩
      cases all with
      | @cons _ w _ ws head tail =>
        exact ⟨_, ⟨w, head, rfl⟩, _, ⟨ws, tail, rfl⟩, by rw [written]⟩

theorem applyHeaderValues_iff {t t' : TableResult} {identity : Text} {values : List Text} :
    applyHeaderValues t identity values = .ok t' ↔
      (headerAssignment identity).isSome ∧ ∃ ws, List.Forall₂ (Writes identity) values ws ∧
        t' = { t with columns := writeColumns ws t.columns } := by
  unfold applyHeaderValues
  cases known : headerAssignment identity with
  | none => simp
  | some assign =>
    simp only [map_eq_ok, zipColumns_writes known, Option.isSome_some, true_and]
    constructor
    · rintro ⟨columns, ⟨ws, written, rfl⟩, rfl⟩
      exact ⟨ws, written, rfl⟩
    · rintro ⟨ws, written, rfl⟩
      exact ⟨_, ⟨ws, written, rfl⟩, rfl⟩

end Columns

section Lines

def ignored (line : Text) : Bool :=
  line = [] || line = "=OK".toList || line.head? = some '#'

def InBody (line : Text) : Prop := line.head? = some '%' ∨ line.head? = some '['

instance (line : Text) : Decidable (InBody line) := inferInstanceAs (Decidable (_ ∨ _))

def identity? (line : Text) : Option Text :=
  if line.head? = some '%' then (rsplitOnce '#' line).map fun cut => trim cut.2 else none

/-- The same lines, rows in the same order and header lines of each identity too. -/
structure Rearranged (xs ys : List Text) : Prop where
  perm : xs.Perm ys
  rows : xs.filter (fun l => l.head? = some '[') = ys.filter fun l => l.head? = some '['
  headers : ∀ identity, xs.filter (fun l => identity? l = some identity) =
    ys.filter fun l => identity? l = some identity

theorem Rearranged.symm {xs ys : List Text} (h : Rearranged xs ys) : Rearranged ys xs :=
  ⟨h.perm.symm, h.rows.symm, fun identity => (h.headers identity).symm⟩

/-- A table's text: its `&1` line and body, with ignored lines anywhere. -/
def TableText (header : Text) (body : List Text) (text : Text) : Prop :=
  (lines text).filter (fun l => !ignored l) = header :: body

/-- What an accepted body line does to the open table. -/
inductive Changes (line : Text) : (TableResult → TableResult) → Prop where
  | row {fields : List (Option Text)} (read : readLine line = .ok (.row fields)) :
      Changes line fun t => { t with rows := t.rows ++ [fields] }
  | columns {identity : Text} {values : List Text} {ws : List (ColumnMeta → ColumnMeta)}
      (read : readLine line = .ok (.columns identity values))
      (known : (headerAssignment identity).isSome)
      (written : List.Forall₂ (Writes identity) values ws) :
      Changes line fun t => { t with columns := writeColumns ws t.columns }

theorem parseLine_ignored {line : Text} (h : ignored line = true) (s u : Slots) :
    parseLine s line = .ok u ↔ u = s := by
  have skipped : readLine line = .ok .skip := by
    simp only [ignored, Bool.or_eq_true, decide_eq_true_eq] at h
    rcases h with (rfl | rfl) | h
    · rfl
    · rfl
    · obtain ⟨rest, rfl⟩ := List.head?_eq_some_iff.mp h
      simp [readLine, lineKind, List.isPrefixOf?, List.isPrefixOf]
  rw [parseLine_of_readLine skipped, LineEffect.apply, Except.ok.injEq, eq_comm]

theorem openTable_eq_ok {slots : Slots} {what : String} {line : Text} {t : TableResult} :
    openTable slots what line = .ok t ↔ slots.table = some t := by
  refine ⟨openTable_ok, fun h => ?_⟩
  rw [openTable, h]

theorem readLine_body {line : Text} (body : InBody line) {effect : LineEffect}
    (read : readLine line = .ok effect) :
    (∃ fields, effect = .row fields ∧ line.head? = some '[') ∨
      ∃ identity values, effect = .columns identity values ∧ identity? line = some identity := by
  rcases body with percent | bracket
  · obtain ⟨rest, rfl⟩ := List.head?_eq_some_iff.mp percent
    have kind : lineKind ('%' :: rest) = .header rest := by
      simp [lineKind, List.isPrefixOf?, List.isPrefixOf]
    rw [readLine, kind] at read
    obtain ⟨⟨identity, values⟩, parsed, rfl⟩ := map_eq_ok.mp read
    obtain ⟨front, back, rfl, last, rfl, rfl⟩ :=
      parseHeaderValues_ok_iff.mp (mapError_eq_ok.mp parsed)
    refine .inr ⟨_, _, rfl, ?_⟩
    have cut : rsplitOnce '#' ('%' :: (front ++ '#' :: back)) = some ('%' :: front, back) :=
      rsplitOnce_eq_some_iff.mpr ⟨rfl, last⟩
    simp [identity?, cut]
  · obtain ⟨rest, rfl⟩ := List.head?_eq_some_iff.mp bracket
    have kind : lineKind ('[' :: rest) = .tuple rest := by
      simp [lineKind, List.isPrefixOf?, List.isPrefixOf]
    rw [readLine, kind] at read
    obtain ⟨fields, -, rfl⟩ := map_eq_ok.mp read
    exact .inl ⟨fields, rfl, rfl⟩

theorem parseLine_body_iff {line : Text} (body : InBody line) {s u : Slots} :
    parseLine s line = .ok u ↔
      ∃ t change, s.table = some t ∧ Changes line change ∧
        u = { s with table := some (change t) } := by
  constructor
  · intro h
    obtain ⟨effect, read, applied⟩ := readLine_of_parseLine h
    rcases readLine_body body read with ⟨fields, rfl, -⟩ | ⟨identity, values, rfl, -⟩
    · simp only [LineEffect.apply, bind_eq_ok, openTable_eq_ok] at applied
      obtain ⟨t, table, done⟩ := applied
      exact ⟨t, _, table, .row read, (Except.ok.inj done).symm⟩
    · simp only [LineEffect.apply, bind_eq_ok, openTable_eq_ok, mapError_eq_ok,
        applyHeaderValues_iff] at applied
      obtain ⟨t, table, _, ⟨known, ws, written, rfl⟩, done⟩ := applied
      exact ⟨t, _, table, .columns read known written, (Except.ok.inj done).symm⟩
  · rintro ⟨t, change, table, changes, rfl⟩
    cases changes with
    | row read =>
      rw [parseLine_of_readLine read, LineEffect.apply, bind_eq_ok]
      exact ⟨t, openTable_eq_ok.mpr table, rfl⟩
    | @columns identity values ws read known written =>
      rw [parseLine_of_readLine read, LineEffect.apply, bind_eq_ok]
      refine ⟨t, openTable_eq_ok.mpr table, ?_⟩
      rw [bind_eq_ok]
      exact ⟨_, mapError_eq_ok.mpr (applyHeaderValues_iff.mpr ⟨known, ws, written, rfl⟩), rfl⟩

end Lines

section Order

theorem exists_writes_of_mem {identity : Text} {values : List Text}
    {ws : List (ColumnMeta → ColumnMeta)} (h : List.Forall₂ (Writes identity) values ws) :
    ∀ w ∈ ws, ∃ value, Writes identity value w := by
  induction h with
  | nil => simp
  | @cons value _ _ _ head _ ih =>
    intro w hw
    rcases List.mem_cons.mp hw with rfl | hw
    · exact ⟨value, head⟩
    · exact ih w hw

theorem Changes.cases_identity {line : Text} (body : InBody line)
    {change : TableResult → TableResult} (h : Changes line change) :
    (identity? line = none ∧ ∃ fields, change = fun t => { t with rows := t.rows ++ [fields] }) ∨
      ∃ identity ws, identity? line = some identity ∧ (∀ w ∈ ws, ∃ value, Writes identity value w) ∧
        change = fun t => { t with columns := writeColumns ws t.columns } := by
  cases h with
  | @row fields read =>
    obtain ⟨_, -, bracket⟩ | ⟨_, _, other, -⟩ := readLine_body body read
    · exact .inl ⟨by simp [identity?, bracket], fields, rfl⟩
    · cases other
  | columns read _ written =>
    obtain ⟨_, other, -⟩ | ⟨_, _, same, found⟩ := readLine_body body read
    · cases other
    · cases same
      exact .inr ⟨_, _, found, exists_writes_of_mem written, rfl⟩

theorem Changes.comm {a b : Text} (bodyA : InBody a) (bodyB : InBody b)
    {f g : TableResult → TableResult} (ha : Changes a f) (hb : Changes b g)
    (other : identity? a ≠ identity? b) (t : TableResult) : g (f t) = f (g t) := by
  obtain ⟨rowA, _, rfl⟩ | ⟨identity, ws, idA, writesA, rfl⟩ := ha.cases_identity bodyA
  · obtain ⟨rowB, _, rfl⟩ | ⟨_, _, -, -, rfl⟩ := hb.cases_identity bodyB
    · exact absurd (rowA.trans rowB.symm) other
    · rfl
  · obtain ⟨-, _, rfl⟩ | ⟨identity', vs, idB, writesB, rfl⟩ := hb.cases_identity bodyB
    · rfl
    · rw [idA, idB, ne_eq, Option.some.injEq] at other
      have comm : writeColumns vs (writeColumns ws t.columns) =
          writeColumns ws (writeColumns vs t.columns) := by
        refine writeColumns_comm (fun v hv w hw c => ?_) t.columns
        obtain ⟨_, writesW⟩ := writesA w hw
        obtain ⟨_, writesV⟩ := writesB v hv
        exact (writesW.comm writesV other c).symm
      simp only [comm]

theorem parseLine_commutes : Commutes (accepts parseLine) identity? InBody := by
  intro a b bodyA bodyB other s v run
  obtain ⟨u, first, rest⟩ := Runs.cons_iff.mp run
  obtain ⟨v', second, done⟩ := Runs.cons_iff.mp rest
  obtain rfl := Runs.nil_iff.mp done
  obtain ⟨t, f, table, ha, rfl⟩ := (parseLine_body_iff bodyA).mp first
  obtain ⟨t', g, table', hb, rfl⟩ := (parseLine_body_iff bodyB).mp second
  obtain rfl : f t = t' := Option.some.inj table'
  have swapped := Changes.comm bodyA bodyB ha hb other t
  refine .next ((parseLine_body_iff bodyB).mpr ⟨t, g, table, hb, rfl⟩) (.next ?_ (.refl _))
  refine (parseLine_body_iff bodyA).mpr ⟨g t, f, rfl, ha, ?_⟩
  rw [← swapped]

theorem row_of_run {xs : List Text} (body : ∀ l ∈ xs, InBody l) {s v : Slots}
    (run : Runs (accepts parseLine) s xs v) {l : Text} (mem : l ∈ xs) :
    identity? l = none ↔ l.head? = some '[' := by
  obtain ⟨t, u, step⟩ := run.exists_step mem
  obtain ⟨effect, read, -⟩ := readLine_of_parseLine step
  rcases readLine_body (body l mem) read with ⟨_, -, row⟩ | ⟨_, _, -, named⟩
  · simp [identity?, row]
  · have percent : l.head? = some '%' := by
      by_contra other
      rw [identity?, if_neg other] at named
      cases named
    simp [named, percent]

theorem run_rearranged {xs ys : List Text} (body : ∀ l ∈ xs, InBody l) (order : Rearranged xs ys)
    {s v : Slots} (run : Runs (accepts parseLine) s xs v) : Runs (accepts parseLine) s ys v := by
  have body' : ∀ l ∈ ys, InBody l := fun l mem => body l (order.perm.mem_iff.mpr mem)
  have row {l : Text} (mem : l ∈ xs) := row_of_run body run mem
  refine runs_rearrange parseLine_commutes body' (fun k => ?_) run
  cases k with
  | some identity => exact order.headers identity
  | none =>
    have left : xs.filter (fun l => identity? l = none) =
        xs.filter fun l => l.head? = some '[' :=
      List.filter_congr fun l mem => by simp [row mem]
    have right : ys.filter (fun l => identity? l = none) =
        ys.filter fun l => l.head? = some '[' :=
      List.filter_congr fun l mem => by simp [row (order.perm.mem_iff.mpr mem)]
    rw [left, right]
    exact order.rows

theorem run_tableText {header : Text} {body : List Text} {text : Text}
    (content : TableText header body text) {s v : Slots} :
    Runs (accepts parseLine) s (lines text) v ↔
      ∃ u, parseLine s header = .ok u ∧ Runs (accepts parseLine) u body v := by
  rw [runs_skip_iff (fun l s u h => parseLine_ignored h s u), content, Runs.cons_iff]

/-- The table of a text is that of any rearrangement of its body that keeps rows, and
header lines of one identity, in their order. -/
theorem table_of_rearranged {header : Text} (first : ∃ rest, header = '&' :: '1' :: rest)
    {xs ys : List Text} (body : ∀ l ∈ xs, InBody l) (order : Rearranged xs ys) {text text' : Text}
    (content : TableText header xs text) (content' : TableText header ys text') :
    (∀ r, parseResponse text = .ok r ↔ parseResponse text' = .ok r) ∧
      ∀ r, parseResponse text = .ok r → ∃ t, r = .table t := by
  have body' : ∀ l ∈ ys, InBody l := fun l mem => body l (order.perm.mem_iff.mpr mem)
  have runs (u v : Slots) : Runs (accepts parseLine) u xs v ↔ Runs (accepts parseLine) u ys v :=
    ⟨run_rearranged body order, run_rearranged body' order.symm⟩
  refine ⟨fun r => ?_, fun r read => ?_⟩
  · simp only [parseResponse_eq_ok_iff, run_tableText content, run_tableText content', runs]
  · obtain ⟨slots, run, rfl⟩ := parseResponse_eq_ok_iff.mp read
    obtain ⟨rest, rfl⟩ := first
    have mem : '&' :: '1' :: rest ∈ lines text := by
      refine (List.mem_filter (p := fun l => !ignored l)).mp ?_ |>.1
      rw [content]
      exact List.mem_cons_self
    have opened := (acceptable_of_run run).2.mpr ⟨_, mem, '1', rest, .inl rfl, rfl⟩
    obtain ⟨t, table⟩ := Option.isSome_iff_exists.mp opened
    exact ⟨t, by rw [Slots.response, table]⟩

theorem rearranged_shortType :
    Rearranged ["% a,\tb # name".toList, "% int # type".toList, "[ 1,\t2\t]".toList]
      ["[ 1,\t2\t]".toList, "% int # type".toList, "% a,\tb # name".toList] where
  perm := by decide
  rows := by decide
  headers := by
    intro identity
    have name : identity? "% a,\tb # name".toList = some "name".toList := by decide
    have type : identity? "% int # type".toList = some "type".toList := by decide
    have row : identity? "[ 1,\t2\t]".toList = none := by decide
    by_cases isName : identity = "name".toList
    · subst isName
      decide
    · by_cases isType : identity = "type".toList
      · subst isType
        decide
      · simp only [List.filter_cons, List.filter_nil, name, type, row, Option.some.injEq,
          eq_false (Ne.symm isName), eq_false (Ne.symm isType), reduceCtorEq, decide_false,
          Bool.false_eq_true, if_false]

theorem table_of_shortType :
    parseResponse "&1 0 1 2 1\n\n[ 1,\t2\t]\n#note\n% int # type\n% a,\tb # name\n=OK".toList =
      .ok (.table
        { queryId := 0, rowCount := 1, declaredColumns := 2, embeddedTuples := 1,
          columns := [⟨"a".toList, "int".toList, none, none⟩, ⟨"b".toList, [], none, none⟩],
          rows := [[some "1".toList, some "2".toList]] }) := by
  have content : TableText "&1 0 1 2 1".toList
      ["% a,\tb # name".toList, "% int # type".toList, "[ 1,\t2\t]".toList]
      "&1 0 1 2 1\n% a,\tb # name\n% int # type\n[ 1,\t2\t]".toList := by
    unfold TableText
    decide
  refine ((table_of_rearranged ⟨" 0 1 2 1".toList, rfl⟩ (by decide) rearranged_shortType
    content ?_).1 _).mp (by decide +kernel)
  unfold TableText
  decide

end Order

end SqlxMonetdb.TableLines
