import SqlxMonetdb.ResponseLines

set_option autoImplicit false

namespace SqlxMonetdb.ResponseErrors
open ListSplitting TextPrimitives DriverError Response ResponseLines LabelledRuns

section Lines

def OpensTable (line : Text) : Prop :=
  ∃ c rest, (c = '1' ∨ c = '5') ∧ line = '&' :: c :: rest

/-- The sizes of a column: none, one number, or two with anything behind them. -/
def SizesText (value : Text) : Prop :=
  value = [] ∨ ∃ first more, splitWhitespace value = first :: more ∧ (parseU64 first).isSome ∧
    ∀ second ∈ more.head?, (parseU64 second).isSome

/-- The identities a header line may have, with what its values must be. -/
inductive ValuesFit (values : List Text) : Text → Prop where
  | name : ValuesFit values "name".toList
  | type : ValuesFit values "type".toList
  | tableName : ValuesFit values "table_name".toList
  | typesizes (sizes : ∀ v ∈ values, SizesText v) : ValuesFit values "typesizes".toList
  | length (lengths : ∀ v ∈ values, v = [] ∨ (parseU64 v).isSome) :
      ValuesFit values "length".toList

/-- The lines the parser accepts; `opened` says that some line before opened a table. -/
inductive Acceptable (opened : Prop) : Text → Prop where
  | blank : Acceptable opened []
  | okay : Acceptable opened "=OK".toList
  | info (rest : Text) : Acceptable opened ('#' :: rest)
  | table {c : Char} (kind : c = '1' ∨ c = '5') {rest queryId rowCount columns tuples : Text}
      {more : List Text}
      (fields : splitWhitespace rest = queryId :: rowCount :: columns :: tuples :: more)
      (queryId_fits : (parseI64 queryId).isSome) (rowCount_fits : (parseU64 rowCount).isSome)
      (columns_fits : (parseU64 columns).isSome) (tuples_fits : (parseU64 tuples).isSome) :
      Acceptable opened ('&' :: c :: rest)
  | update {rest affected : Text} {more : List Text}
      (fields : splitWhitespace rest = affected :: more) (affected_fits : (parseU64 affected).isSome)
      (identity : ∀ s ∈ more.head?, s = "-1".toList ∨ (parseI64 s).isSome) :
      Acceptable opened ('&' :: '2' :: rest)
  | schema (rest : Text) : Acceptable opened ('&' :: '3' :: rest)
  | transaction {c flag : Char} (known : flag = 't' ∨ flag = 'f') (rest : Text) :
      Acceptable opened ('&' :: '4' :: c :: flag :: rest)
  | header {values identity : Text} (last : '#' ∉ identity)
      (fit : ValuesFit (((trim values).splitOn ',').map trim) (trim identity)) (table : opened) :
      Acceptable opened ('%' :: (values ++ '#' :: identity))
  | tuple (inner : Text) (table : opened) : Acceptable opened ('[' :: (inner ++ [']']))

def AcceptableAfter (earlier : List Text) (line : Text) : Prop :=
  Acceptable (∃ l ∈ earlier, OpensTable l) line

def AllAcceptable (lines : List Text) : Prop :=
  ∀ before line after, lines = before ++ line :: after → AcceptableAfter before line

end Lines

section Parts

theorem parsed_eq_ok {α : Type} {value : Option α} {message : Message} {a : α} :
    parsed value message = .ok a ↔ value = some a := by
  cases value <;> simp [parsed]

theorem parseTableHeader_ok_iff {rest : Text} :
    (∃ t, parseTableHeader rest = .ok t) ↔
      ∃ queryId rowCount columns tuples more,
        splitWhitespace rest = queryId :: rowCount :: columns :: tuples :: more ∧
        (parseI64 queryId).isSome ∧ (parseU64 rowCount).isSome ∧ (parseU64 columns).isSome ∧
        (parseU64 tuples).isSome := by
  unfold parseTableHeader
  split
  · rename_i queryId rowCount columns tuples more fields
    simp only [bind_eq_ok, parseField, parsed_eq_ok]
    constructor
    · rintro ⟨_, a, ha, b, hb, c, hc, d, hd, -⟩
      exact ⟨queryId, rowCount, columns, tuples, more, fields, by simp [ha], by simp [hb],
        by simp [hc], by simp [hd]⟩
    · rintro ⟨_, _, _, _, _, same, ha, hb, hc, hd⟩
      cases fields.symm.trans same
      obtain ⟨a, ha⟩ := Option.isSome_iff_exists.mp ha
      obtain ⟨b, hb⟩ := Option.isSome_iff_exists.mp hb
      obtain ⟨c, hc⟩ := Option.isSome_iff_exists.mp hc
      obtain ⟨d, hd⟩ := Option.isSome_iff_exists.mp hd
      exact ⟨_, a, ha, b, hb, c, hc, d, hd, rfl⟩
  · rename_i few
    simp only [reduceCtorEq, exists_false, false_iff]
    rintro ⟨queryId, rowCount, columns, tuples, more, fields, -⟩
    exact few queryId rowCount columns tuples more fields

theorem parseUpdateLine_ok_iff {rest : Text} :
    (∃ r, parseUpdateLine rest = .ok r) ↔
      ∃ affected more, splitWhitespace rest = affected :: more ∧ (parseU64 affected).isSome ∧
        ∀ s ∈ more.head?, s = "-1".toList ∨ (parseI64 s).isSome := by
  unfold parseUpdateLine
  split
  · rename_i none
    simp [none]
  · rename_i affected more fields
    simp only [bind_eq_ok, parsed_eq_ok, fields, List.cons.injEq]
    constructor
    · rintro ⟨r, count, hcount, read⟩
      refine ⟨affected, more, ⟨rfl, rfl⟩, by simp [hcount], fun s hs => ?_⟩
      rw [Option.mem_def.mp hs] at read
      dsimp only at read
      split_ifs at read with minusOne
      · exact .inl minusOne
      · obtain ⟨identity, found, -⟩ := bind_eq_ok.mp read
        obtain ⟨n, hn, -⟩ := map_eq_ok.mp found
        exact .inr (by simp [parsed_eq_ok.mp hn])
    · rintro ⟨_, _, ⟨rfl, rfl⟩, hcount, identity⟩
      obtain ⟨count, hcount⟩ := Option.isSome_iff_exists.mp hcount
      cases head : more.head? with
      | none => exact ⟨_, count, hcount, rfl⟩
      | some s =>
        dsimp only
        by_cases minusOne : s = "-1".toList
        · exact ⟨.update count none, count, hcount, (if_pos minusOne).trans rfl⟩
        · obtain ⟨n, hn⟩ := Option.isSome_iff_exists.mp ((identity s head).resolve_left minusOne)
          refine ⟨.update count (some n), count, hcount, (if_neg minusOne).trans ?_⟩
          rw [bind_eq_ok]
          exact ⟨some n, map_eq_ok.mpr ⟨n, parsed_eq_ok.mpr hn, rfl⟩, rfl⟩

theorem parseTransactionLine_ok_iff {line : Text} :
    (∃ r, parseTransactionLine line = .ok r) ↔
      ∃ flag, (line.drop 3).head? = some flag ∧ (flag = 't' ∨ flag = 'f') := by
  unfold parseTransactionLine
  cases (line.drop 3).head? with
  | none => simp
  | some flag =>
    dsimp only
    split_ifs with t f
    · simp [t]
    · simp [f]
    · simp [t, f]

theorem parseHeaderValues_ok_iff {rest identity : Text} {values : List Text} :
    parseHeaderValues rest = .ok (identity, values) ↔
      ∃ front back, rest = front ++ '#' :: back ∧ '#' ∉ back ∧ identity = trim back ∧
        values = ((trim front).splitOn ',').map trim := by
  unfold parseHeaderValues
  cases cut : rsplitOnce '#' rest with
  | none =>
    simp only [reduceCtorEq, false_iff]
    rintro ⟨front, back, rfl, -⟩
    exact rsplitOnce_eq_none_iff.mp cut (by simp)
  | some parts =>
    obtain ⟨front, back⟩ := parts
    simp only [Except.ok.injEq, Prod.mk.injEq]
    constructor
    · rintro ⟨rfl, rfl⟩
      obtain ⟨whole, last⟩ := rsplitOnce_eq_some_iff.mp cut
      exact ⟨front, back, whole, last, rfl, rfl⟩
    · rintro ⟨front', back', whole, last, rfl, rfl⟩
      rw [rsplitOnce_eq_some_iff.mpr ⟨whole, last⟩] at cut
      cases cut
      exact ⟨rfl, rfl⟩

theorem parseTypesizesValue_ok_iff {value : Text} (trimmed : trim value = value) :
    (∃ n, parseTypesizesValue value = .ok n) ↔ SizesText value := by
  unfold parseTypesizesValue SizesText
  rw [trimmed]
  dsimp only
  split_ifs with empty
  · simp [empty]
  · split
    · rename_i none
      simp [none, empty]
    · rename_i first more fields
      simp only [bind_eq_ok, parsed_eq_ok, fields, List.cons.injEq, empty, false_or]
      constructor
      · rintro ⟨n, a, ha, read⟩
        refine ⟨first, more, ⟨rfl, rfl⟩, by simp [ha], fun s hs => ?_⟩
        rw [Option.mem_def.mp hs] at read
        obtain ⟨second, found, -⟩ := bind_eq_ok.mp read
        obtain ⟨b, hb, -⟩ := map_eq_ok.mp found
        simp [parsed_eq_ok.mp hb]
      · rintro ⟨_, _, ⟨rfl, rfl⟩, ha, second⟩
        obtain ⟨a, ha⟩ := Option.isSome_iff_exists.mp ha
        cases head : more.head? with
        | none => exact ⟨_, a, ha, rfl⟩
        | some s =>
          obtain ⟨b, hb⟩ := Option.isSome_iff_exists.mp (second s head)
          refine ⟨some (a, some b), a, ha, ?_⟩
          dsimp only
          rw [bind_eq_ok]
          exact ⟨some b, map_eq_ok.mpr ⟨b, parsed_eq_ok.mpr hb, rfl⟩, rfl⟩

theorem parseLengthValue_ok_iff {value : Text} (trimmed : trim value = value) :
    (∃ n, parseLengthValue value = .ok n) ↔ value = [] ∨ (parseU64 value).isSome := by
  unfold parseLengthValue
  rw [trimmed]
  dsimp only
  split_ifs with empty
  · simp [empty]
  · simp [map_eq_ok, parseField, parsed_eq_ok, empty, Option.isSome_iff_exists]

theorem unescapeField_ok (field : Text) : ∃ value, unescapeField field = .ok value := by
  unfold unescapeField
  split_ifs
  · exact ⟨_, rfl⟩
  · split
    · exact ⟨_, rfl⟩
    · split_ifs
      · split <;> exact ⟨_, rfl⟩
      · exact ⟨_, rfl⟩

theorem mapM_unescapeField_ok (texts : List Text) :
    ∃ fields, texts.mapM (fun text => unescapeField (trim text)) = .ok fields := by
  induction texts with
  | nil => exact ⟨[], rfl⟩
  | cons text texts ih =>
    obtain ⟨fields, rest⟩ := ih
    obtain ⟨value, head⟩ := unescapeField_ok (trim text)
    refine ⟨value :: fields, ?_⟩
    rw [List.mapM_cons, head, rest]
    rfl

theorem parseTupleFields_ok_iff {rest : Text} :
    (∃ fields, parseTupleFields rest = .ok fields) ↔ ∃ inner, rest = inner ++ [']'] := by
  unfold parseTupleFields
  cases stripped : [']'].isSuffixOf? rest with
  | none =>
    simp only [reduceCtorEq, exists_false, false_iff]
    rintro ⟨inner, rfl⟩
    rw [isSuffixOf?_append] at stripped
    cases stripped
  | some inner =>
    have whole := isSuffixOf?_eq_some_iff.mp stripped
    dsimp only
    refine iff_of_true ?_ ⟨inner, whole⟩
    split_ifs
    · exact ⟨[], rfl⟩
    · exact mapM_unescapeField_ok _

end Parts

section Kinds

def KindOf (line : Text) : LineKind → Prop
  | .blank => line = [] ∨ line = "=OK".toList
  | .error message => line = '!' :: message
  | .info => ∃ rest, line = '#' :: rest
  | .table rest => ∃ c, (c = '1' ∨ c = '5') ∧ line = '&' :: c :: rest
  | .update rest => line = '&' :: '2' :: rest
  | .schema => ∃ rest, line = '&' :: '3' :: rest
  | .transaction => ∃ rest, line = '&' :: '4' :: rest
  | .header rest => line = '%' :: rest
  | .tuple rest => line = '[' :: rest
  | .unrecognized => line.head? ≠ some '!'

theorem kindOf_lineKind (line : Text) : KindOf line (lineKind line) := by
  generalize h : lineKind line = kind
  unfold lineKind at h
  split at h
  · subst h
    assumption
  split at h
  · rename_i error
    subst h
    exact isPrefixOf?_eq_some_iff.mp error
  rename_i noError
  split at h
  · rename_i info
    subst h
    obtain ⟨rest, rfl⟩ := List.isPrefixOf_iff_prefix.mp info
    exact ⟨rest, rfl⟩
  split at h
  · rename_i table
    subst h
    rcases Option.or_eq_some_iff.mp table with one | ⟨-, five⟩
    · exact ⟨'1', .inl rfl, isPrefixOf?_eq_some_iff.mp one⟩
    · exact ⟨'5', .inr rfl, isPrefixOf?_eq_some_iff.mp five⟩
  split at h
  · rename_i update
    subst h
    exact isPrefixOf?_eq_some_iff.mp update
  split at h
  · rename_i schema
    subst h
    obtain ⟨rest, rfl⟩ := List.isPrefixOf_iff_prefix.mp schema
    exact ⟨rest, rfl⟩
  split at h
  · rename_i transaction
    subst h
    obtain ⟨rest, rfl⟩ := List.isPrefixOf_iff_prefix.mp transaction
    exact ⟨rest, rfl⟩
  split at h
  · rename_i header
    subst h
    exact isPrefixOf?_eq_some_iff.mp header
  split at h
  · rename_i tuple
    subst h
    exact isPrefixOf?_eq_some_iff.mp tuple
  subst h
  intro bang
  obtain ⟨rest, rfl⟩ := List.head?_eq_some_iff.mp bang
  exact noError rest rfl

theorem lineKind_error (message : Text) : lineKind ('!' :: message) = .error message := by
  simp [lineKind, List.isPrefixOf?]

theorem lineKind_table {c : Char} (kind : c = '1' ∨ c = '5') (rest : Text) :
    lineKind ('&' :: c :: rest) = .table rest := by
  rcases kind with rfl | rfl <;> simp [lineKind, List.isPrefixOf?, List.isPrefixOf]

theorem isOk_iff {α ε : Type} {x : Except ε α} : x.isOk = true ↔ ∃ a, x = .ok a := by
  cases x <;> simp [Except.isOk, Except.toBool]

theorem acceptable_eq (hasTable : Bool) (line : Text) :
    acceptable hasTable line =
      match lineKind line with
      | .blank => true
      | .error _ => false
      | .info => true
      | .table rest => (parseTableHeader rest).isOk
      | .update rest => (parseUpdateLine rest).isOk
      | .schema => true
      | .transaction => (parseTransactionLine line).isOk
      | .header rest =>
        match parseHeaderValues rest with
        | .ok (identity, values) => hasTable && valuesFit identity values
        | .error _ => false
      | .tuple rest => hasTable && (parseTupleFields rest).isOk
      | .unrecognized => false := by
  unfold acceptable readLine
  cases lineKind line with
  | table rest =>
    dsimp only
    cases parseTableHeader rest <;> rfl
  | update rest =>
    dsimp only
    cases parseUpdateLine rest <;> rfl
  | transaction =>
    dsimp only
    cases parseTransactionLine line <;> rfl
  | header rest =>
    dsimp only
    cases parseHeaderValues rest <;> rfl
  | tuple rest =>
    dsimp only
    cases parseTupleFields rest <;> cases hasTable <;> rfl
  | _ => rfl

theorem valuesFit_iff {identity : Text} {values : List Text} (trimmed : ∀ v ∈ values, trim v = v) :
    valuesFit identity values = true ↔ ValuesFit values identity := by
  have sizes (known : headerAssignment identity = some fun col value =>
      (parseTypesizesValue value).map fun typesizes => { col with typesizes }) :
      valuesFit identity values = true ↔ ∀ v ∈ values, SizesText v := by
    unfold valuesFit
    rw [known]
    simp only [List.all_eq_true, isOk_iff, map_eq_ok]
    refine forall₂_congr fun v hv => ?_
    rw [← parseTypesizesValue_ok_iff (trimmed v hv)]
    simp
  have lengths (known : headerAssignment identity = some fun col value =>
      (parseLengthValue value).map fun length => { col with length }) :
      valuesFit identity values = true ↔ ∀ v ∈ values, v = [] ∨ (parseU64 v).isSome := by
    unfold valuesFit
    rw [known]
    simp only [List.all_eq_true, isOk_iff, map_eq_ok]
    refine forall₂_congr fun v hv => ?_
    rw [← parseLengthValue_ok_iff (trimmed v hv)]
    simp
  constructor
  · intro fit
    cases known : headerAssignment identity with
    | none => simp [valuesFit, known] at fit
    | some assign =>
      unfold headerAssignment at known
      split_ifs at known with name type typesizes length tableName
      · exact name ▸ .name
      · exact type ▸ .type
      · subst typesizes
        exact .typesizes ((sizes rfl).mp fit)
      · subst length
        exact .length ((lengths rfl).mp fit)
      · exact tableName ▸ .tableName
  · intro fit
    cases fit with
    | typesizes h => exact (sizes rfl).mpr h
    | length h => exact (lengths rfl).mpr h
    | name => simp [valuesFit, headerAssignment, Except.isOk, Except.toBool]
    | type => simp [valuesFit, headerAssignment, Except.isOk, Except.toBool]
    | tableName => simp [valuesFit, headerAssignment, Except.isOk, Except.toBool]

theorem acceptable_iff {hasTable : Bool} {line : Text} :
    acceptable hasTable line = true ↔ Acceptable (hasTable = true) line := by
  have trimmed (front : Text) : ∀ v ∈ ((trim front).splitOn ',').map trim, trim v = v := by
    intro v hv
    obtain ⟨w, -, rfl⟩ := List.mem_map.mp hv
    exact trimBy_of_trimmed (trimmed_trimBy w)
  rw [acceptable_eq]
  constructor
  · intro h
    have kind := kindOf_lineKind line
    cases found : lineKind line with
    | blank =>
      rw [found] at kind
      rcases kind with rfl | rfl
      · exact .blank
      · exact .okay
    | info =>
      rw [found] at kind
      obtain ⟨rest, rfl⟩ := kind
      exact .info rest
    | schema =>
      rw [found] at kind
      obtain ⟨rest, rfl⟩ := kind
      exact .schema rest
    | table rest =>
      rw [found] at kind h
      obtain ⟨c, one_or_five, rfl⟩ := kind
      obtain ⟨_, _, _, _, _, fields, queryId, rowCount, columns, tuples⟩ :=
        parseTableHeader_ok_iff.mp (isOk_iff.mp h)
      exact .table one_or_five fields queryId rowCount columns tuples
    | update rest =>
      rw [found] at kind h
      obtain rfl := kind
      obtain ⟨_, _, fields, affected, identity⟩ := parseUpdateLine_ok_iff.mp (isOk_iff.mp h)
      exact .update fields affected identity
    | transaction =>
      rw [found] at kind h
      obtain ⟨rest, rfl⟩ := kind
      obtain ⟨flag, fourth, known⟩ := parseTransactionLine_ok_iff.mp (isOk_iff.mp h)
      match rest, fourth with
      | c :: _ :: rest, rfl => exact .transaction known rest
    | header rest =>
      rw [found] at kind h
      obtain rfl := kind
      cases read : parseHeaderValues rest with
      | error e => simp [read] at h
      | ok pair =>
        obtain ⟨identity, values⟩ := pair
        obtain ⟨front, back, rfl, last, rfl, rfl⟩ := parseHeaderValues_ok_iff.mp read
        simp only [read, Bool.and_eq_true] at h
        exact .header last ((valuesFit_iff (trimmed front)).mp h.2) h.1
    | tuple rest =>
      rw [found] at kind h
      obtain rfl := kind
      rw [Bool.and_eq_true, isOk_iff] at h
      obtain ⟨inner, rfl⟩ := parseTupleFields_ok_iff.mp h.2
      exact .tuple inner h.1
    | error message => simp [found] at h
    | unrecognized => simp [found] at h
  · intro h
    cases h with
    | blank => rfl
    | okay => rfl
    | info rest => simp [lineKind, List.isPrefixOf?, List.isPrefixOf]
    | schema rest => simp [lineKind, List.isPrefixOf?, List.isPrefixOf]
    | table kind fields queryId rowCount columns tuples =>
      rw [lineKind_table kind]
      exact isOk_iff.mpr (parseTableHeader_ok_iff.mpr
        ⟨_, _, _, _, _, fields, queryId, rowCount, columns, tuples⟩)
    | @update rest _ _ fields affected identity =>
      have kind : lineKind ('&' :: '2' :: rest) = .update rest := by
        simp [lineKind, List.isPrefixOf?, List.isPrefixOf]
      rw [kind]
      exact isOk_iff.mpr (parseUpdateLine_ok_iff.mpr ⟨_, _, fields, affected, identity⟩)
    | @transaction c flag known rest =>
      have kind : lineKind ('&' :: '4' :: c :: flag :: rest) = .transaction := by
        simp [lineKind, List.isPrefixOf?, List.isPrefixOf]
      rw [kind]
      exact isOk_iff.mpr (parseTransactionLine_ok_iff.mpr ⟨flag, rfl, known⟩)
    | @header front back last fit table =>
      have kind : lineKind ('%' :: (front ++ '#' :: back)) = .header (front ++ '#' :: back) := by
        simp [lineKind, List.isPrefixOf?, List.isPrefixOf]
      have read : parseHeaderValues (front ++ '#' :: back) =
          .ok (trim back, ((trim front).splitOn ',').map trim) :=
        parseHeaderValues_ok_iff.mpr ⟨front, back, rfl, last, rfl, rfl⟩
      rw [kind]
      simp only [read, table, Bool.true_and]
      exact (valuesFit_iff (trimmed front)).mpr fit
    | tuple inner table =>
      have kind : lineKind ('[' :: (inner ++ [']'])) = .tuple (inner ++ [']']) := by
        simp [lineKind, List.isPrefixOf?, List.isPrefixOf]
      rw [kind]
      simp only [table, Bool.true_and]
      exact isOk_iff.mpr (parseTupleFields_ok_iff.mpr ⟨inner, rfl⟩)

theorem opened?_isSome_iff {hasTable : Bool} {line : Text}
    (accepted : acceptable hasTable line = true) : (opened? line).isSome ↔ OpensTable line := by
  constructor
  · intro h
    obtain ⟨t, found⟩ := Option.isSome_iff_exists.mp h
    have kind := kindOf_lineKind line
    unfold opened? at found
    split at found
    · rename_i read
      unfold readLine at read
      split at read <;> simp [map_eq_ok, mapError_eq_ok] at read
      rename_i rest table
      rw [table] at kind
      obtain ⟨c, one_or_five, rfl⟩ := kind
      exact ⟨c, rest, one_or_five, rfl⟩
    · cases found
  · rintro ⟨c, rest, one_or_five, rfl⟩
    rw [acceptable_eq, lineKind_table one_or_five] at accepted
    obtain ⟨t, read⟩ := isOk_iff.mp accepted
    simp [opened?, readLine, lineKind_table one_or_five, read, Except.mapError, Except.map]

end Kinds

section Outcome

theorem database_of_bind {α β : Type} {x : Except MonetError α} {f : α → Except ResponseError β}
    {e : MonetDatabaseError} (h : (x.mapError ResponseError.protocol >>= f) = .error (.database e)) :
    ∃ a, x = .ok a ∧ f a = .error (.database e) := by
  cases x with
  | error e' => cases h
  | ok a => exact ⟨a, rfl, h⟩

theorem openTable_not_database {α : Type} {slots : Slots} {what : String} {line : Text}
    {f : TableResult → Except ResponseError α} {e : MonetDatabaseError}
    (h : (openTable slots what line >>= f) = .error (.database e)) :
    ∃ t, f t = .error (.database e) := by
  unfold openTable at h
  split at h
  · exact ⟨_, h⟩
  · cases h

theorem parseLine_database_iff {slots : Slots} {line message : Text} :
    parseLine slots line = .error (.database ⟨message⟩) ↔ line = '!' :: message := by
  constructor
  · intro h
    have kind := kindOf_lineKind line
    unfold parseLine at h
    split at h
    · cases h
    · rename_i text found
      cases h
      rw [found] at kind
      exact kind
    · cases h
    · obtain ⟨_, -, done⟩ := database_of_bind h
      cases done
    · obtain ⟨_, -, done⟩ := database_of_bind h
      cases done
    · cases h
    · obtain ⟨_, -, done⟩ := database_of_bind h
      cases done
    · obtain ⟨_, -, rest⟩ := database_of_bind h
      obtain ⟨_, rest⟩ := openTable_not_database rest
      obtain ⟨_, -, done⟩ := database_of_bind rest
      cases done
    · obtain ⟨_, -, rest⟩ := database_of_bind h
      obtain ⟨_, done⟩ := openTable_not_database rest
      cases done
    · cases h
  · rintro rfl
    rw [parseLine, lineKind_error]

theorem allAcceptable_concat {past : List Text} {line : Text} :
    AllAcceptable (past ++ [line]) ↔ AllAcceptable past ∧ AcceptableAfter past line := by
  constructor
  · intro all
    refine ⟨fun before l after split => ?_, all past line [] rfl⟩
    exact all before l (after ++ [line]) (by rw [split, List.append_assoc, List.cons_append])
  · rintro ⟨all, last⟩ before l after split
    rcases List.eq_nil_or_concat after with rfl | ⟨after, l', rfl⟩
    · obtain ⟨rfl, same⟩ := List.append_inj' split rfl
      obtain rfl := List.singleton_inj.mp same
      exact last
    · rw [List.concat_eq_append, ← List.cons_append, ← List.append_assoc] at split
      exact all before l after (List.append_inj' split rfl).1

theorem acceptable_of_run {past : List Text} {slots : Slots}
    (run : Runs (accepts parseLine) ⟨none, none⟩ past slots) :
    AllAcceptable past ∧ (slots.table.isSome = true ↔ ∃ l ∈ past, OpensTable l) := by
  have step (past : List Text) (line : Text) (s u : Slots)
      (before : AllAcceptable past ∧ (s.table.isSome = true ↔ ∃ l ∈ past, OpensTable l))
      (h : parseLine s line = .ok u) : AllAcceptable (past ++ [line]) ∧
        (u.table.isSome = true ↔ ∃ l ∈ past ++ [line], OpensTable l) := by
    obtain ⟨all, table⟩ := before
    have accepted := (exists_parseLine_iff s line).mp ⟨u, h⟩
    refine ⟨allAcceptable_concat.mpr ⟨all, ?_⟩, ?_⟩
    · rw [AcceptableAfter, ← table]
      exact acceptable_iff.mp accepted
    · rw [table_isSome_of_parseLine h, Bool.or_eq_true, table, opened?_isSome_iff accepted]
      simp [or_and_right, exists_or]
  have history := Runs.history
    (I := fun past s => AllAcceptable past ∧ (s.table.isSome = true ↔ ∃ l ∈ past, OpensTable l))
    step [] ⟨fun before line after split => by simp at split, by simp⟩ run
  simpa using history

theorem run_of_acceptable {past : List Text} (all : AllAcceptable past) :
    ∃ slots, Runs (accepts parseLine) ⟨none, none⟩ past slots := by
  induction past using List.reverseRecOn with
  | nil => exact ⟨_, .refl _⟩
  | append_singleton past line ih =>
    obtain ⟨before, last⟩ := allAcceptable_concat.mp all
    obtain ⟨slots, run⟩ := ih before
    rw [AcceptableAfter, ← (acceptable_of_run run).2] at last
    obtain ⟨slots', next⟩ := (exists_parseLine_iff slots line).mpr (acceptable_iff.mpr last)
    exact ⟨slots', Runs.append_iff.mpr ⟨slots, run, .next next (.refl _)⟩⟩

theorem parseResponse_eq_ok_iff {text : Text} {r : QueryResponse} :
    parseResponse text = .ok r ↔
      ∃ slots, Runs (accepts parseLine) ⟨none, none⟩ (lines text) slots ∧ slots.response = r := by
  unfold parseResponse
  simp only [bind_eq_ok, ← foldlM_ok_iff, Except.ok.injEq]
  rfl

theorem parseResponse_error_iff {text : Text} {e : ResponseError} :
    parseResponse text = .error e ↔
      ∃ before line after slots, lines text = before ++ line :: after ∧
        Runs (accepts parseLine) ⟨none, none⟩ before slots ∧ parseLine slots line = .error e := by
  rw [← foldlM_error_iff, parseResponse, lines]
  cases (text.splitOn '\n').foldlM parseLine ⟨none, none⟩ with
  | error e' => simp [bind, Except.bind]
  | ok slots => simp [bind, Except.bind]

theorem parseResponse_accepted_iff {text : Text} :
    (∃ r, parseResponse text = .ok r) ↔ AllAcceptable (lines text) := by
  constructor
  · rintro ⟨r, read⟩
    obtain ⟨slots, run, -⟩ := parseResponse_eq_ok_iff.mp read
    exact (acceptable_of_run run).1
  · intro all
    obtain ⟨slots, run⟩ := run_of_acceptable all
    exact ⟨_, parseResponse_eq_ok_iff.mpr ⟨slots, run, rfl⟩⟩

/-- The first line that may not stand where it stands decides the outcome. -/
theorem parseResponse_decided (text : Text) :
    ((∃ r, parseResponse text = .ok r) ↔ AllAcceptable (lines text)) ∧
    (∀ m, parseResponse text = .error (.database ⟨m⟩) ↔
      ∃ before after, lines text = before ++ ('!' :: m) :: after ∧ AllAcceptable before) ∧
    ((∃ e, parseResponse text = .error (.protocol e)) ↔
      ∃ before line after, lines text = before ++ line :: after ∧ AllAcceptable before ∧
        ¬ AcceptableAfter before line ∧ line.head? ≠ some '!') ∧
    ((∃ line ∈ lines text, line.head? = some '!') → ∀ r, parseResponse text ≠ .ok r) := by
  refine ⟨parseResponse_accepted_iff, fun m => ?_, ?_, ?_⟩
  · rw [parseResponse_error_iff]
    constructor
    · rintro ⟨before, line, after, slots, split, run, failed⟩
      obtain rfl := parseLine_database_iff.mp failed
      exact ⟨before, after, split, (acceptable_of_run run).1⟩
    · rintro ⟨before, after, split, all⟩
      obtain ⟨slots, run⟩ := run_of_acceptable all
      exact ⟨before, _, after, slots, split, run, parseLine_database_iff.mpr rfl⟩
  · simp only [parseResponse_error_iff]
    constructor
    · rintro ⟨e, before, line, after, slots, split, run, failed⟩
      obtain ⟨all, table⟩ := acceptable_of_run run
      refine ⟨before, line, after, split, all, fun accepted => ?_, fun bang => ?_⟩
      · rw [AcceptableAfter, ← table] at accepted
        obtain ⟨slots', read⟩ := (exists_parseLine_iff slots line).mpr (acceptable_iff.mpr accepted)
        rw [read] at failed
        cases failed
      · obtain ⟨m, rfl⟩ := List.head?_eq_some_iff.mp bang
        rw [parseLine_database_iff.mpr rfl] at failed
        cases failed
    · rintro ⟨before, line, after, split, all, refused, noBang⟩
      obtain ⟨slots, run⟩ := run_of_acceptable all
      rw [AcceptableAfter, ← (acceptable_of_run run).2, ← acceptable_iff, ← exists_parseLine_iff]
        at refused
      cases failed : parseLine slots line with
      | ok slots' => exact absurd ⟨slots', failed⟩ refused
      | error e =>
        cases e with
        | protocol e => exact ⟨e, before, line, after, slots, split, run, failed⟩
        | database e =>
          obtain rfl := parseLine_database_iff.mp failed
          exact absurd rfl noBang
  · rintro ⟨line, mem, bang⟩ r read
    obtain ⟨before, after, split⟩ := List.append_of_mem mem
    obtain ⟨m, rfl⟩ := List.head?_eq_some_iff.mp bang
    have accepted := parseResponse_accepted_iff.mp ⟨r, read⟩ before _ after split
    cases accepted

end Outcome

end SqlxMonetdb.ResponseErrors
