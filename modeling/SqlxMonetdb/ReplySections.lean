import SqlxMonetdb.Connection
import SqlxMonetdb.ResponseErrors

set_option autoImplicit false

namespace SqlxMonetdb.ReplySections
open TextPrimitives DriverError Framing FramingBlocks Response ResponseLines ResponseErrors Row
open Arguments Connection

section Yields

def rows (items : List Item) : List MonetRow :=
  items.filterMap fun item =>
    match item with
    | .ok (.inr row) => some row
    | _ => none

def queryResults (items : List Item) : List MonetQueryResult :=
  items.filterMap fun item =>
    match item with
    | .ok (.inl result) => some result
    | _ => none

def allOk (items : List Item) : Bool := items.all Except.isOk

/-- `items` come from some query that was answered with `text`, in any framing. -/
def Yields (text : Text) (items : List Item) : Prop :=
  ∃ sql arguments query wire rest written, sqlText sql arguments = .ok query ∧
    Framed wire (utf8Encode text) ∧
    (runQuery ⟨⟨wire ++ rest, written⟩⟩ sql arguments).1 = items

theorem yields_iff (text : Text) (items : List Item) :
    Yields text items ↔
      items = resultItems ((parseResponse text).mapError ResponseError.toError) := by
  constructor
  · rintro ⟨sql, arguments, query, wire, rest, written, sent, framed, rfl⟩
    rw [runQuery_framed sent framed, messageResult_utf8Encode]
  · rintro rfl
    refine ⟨[], .ok none, [], _, [], [], rfl, framed_encodeMessage (utf8Encode text), ?_⟩
    rw [runQuery_framed rfl (framed_encodeMessage _), messageResult_utf8Encode]

theorem yields_of_ok {text : Text} {items : List Item} {response : QueryResponse}
    (yields : Yields text items) (parsed : parseResponse text = .ok response) :
    items = responseItems response := by
  rw [(yields_iff text items).mp yields, parsed]
  rfl

theorem yields_of_error {text : Text} {items : List Item} {e : ResponseError}
    (yields : Yields text items) (failed : parseResponse text = .error e) :
    items = [.error e.toError] := by
  rw [(yields_iff text items).mp yields, failed]
  rfl

@[simp] theorem rows_table (t : TableResult) :
    rows (responseItems (.table t)) = fromTableResult t := by
  simp [rows, responseItems, List.filterMap_append, List.filterMap_map]

@[simp] theorem queryResults_table (t : TableResult) :
    queryResults (responseItems (.table t)) = [⟨t.rowCount⟩] := by
  simp [queryResults, responseItems, List.filterMap_append, List.filterMap_map]

theorem allOk_responseItems (response : QueryResponse) : allOk (responseItems response) = true := by
  cases response <;> simp [allOk, responseItems, Except.isOk, Except.toBool]

theorem length_fromTableResult (t : TableResult) : (fromTableResult t).length = t.rows.length := by
  simp [fromTableResult]

theorem values_fromTableResult (t : TableResult) :
    (fromTableResult t).map MonetRow.values = t.rows := by
  simp [fromTableResult, Function.comp_def]

end Yields

section Truncation

def DeclaresRows (line : Text) (count : UInt64) : Prop :=
  ∃ rest queryId rowCount more, line = '&' :: '1' :: rest ∧
    splitWhitespace rest = queryId :: rowCount :: more ∧ parseU64 rowCount = some count

def opensTable (line : Text) : Bool := "&1".toList.isPrefixOf line || "&5".toList.isPrefixOf line

def tupleCount (lines : List Text) : ℕ := lines.countP fun line => line.head? == some '['

/-- Of the lines behind a `&1` or `&5` line those of its own table. -/
def tableLines (after : List Text) : List Text := after.takeWhile fun line => !opensTable line

/-- The lines behind the last `&1` or `&5` line. -/
def lastTableLines (lines : List Text) : List Text := lines.rtakeWhile fun line => !opensTable line

/-- Items that are all fine are as many rows as every `&1` line declares, and a `&1` line
with fewer `[` lines behind it than it declares yields an error. -/
structure Untruncated (text : Text) (items : List Item) : Prop where
  complete : allOk items = true → ∀ line ∈ lines text, ∀ count, DeclaresRows line count →
    (rows items).length = count.toNat
  reported : ∀ before line after count, lines text = before ++ line :: after →
    DeclaresRows line count → tupleCount (tableLines after) < count.toNat → ∃ e, .error e ∈ items

theorem opensTable_iff {line : Text} : opensTable line = true ↔ OpensTable line := by
  rw [opensTable, Bool.or_eq_true, List.isPrefixOf_iff_prefix, List.isPrefixOf_iff_prefix]
  constructor
  · rintro (⟨rest, rfl⟩ | ⟨rest, rfl⟩)
    · exact ⟨'1', rest, .inl rfl, rfl⟩
    · exact ⟨'5', rest, .inr rfl, rfl⟩
  · rintro ⟨c, rest, rfl | rfl, rfl⟩
    · exact .inl ⟨rest, rfl⟩
    · exact .inr ⟨rest, rfl⟩

theorem DeclaresRows.opensTable {line : Text} {count : UInt64} (declares : DeclaresRows line count) :
    ReplySections.opensTable line = true := by
  obtain ⟨rest, _, _, _, rfl, -, -⟩ := declares
  exact opensTable_iff.mpr ⟨'1', rest, .inl rfl, rfl⟩

theorem fields?_isSome {hasTable : Bool} {line : Text} (accepted : acceptable hasTable line = true) :
    (fields? line).isSome = (line.head? == some '[') := by
  rw [Bool.eq_iff_iff, beq_iff_eq]
  constructor
  · intro isRow
    obtain ⟨fields, found⟩ := Option.isSome_iff_exists.mp isRow
    have kind := kindOf_lineKind line
    unfold fields? at found
    split at found
    · rename_i read
      unfold readLine at read
      split at read <;> simp [map_eq_ok, mapError_eq_ok] at read
      rename_i rest tuple
      rw [tuple] at kind
      rw [show line = '[' :: rest from kind, List.head?_cons]
    · cases found
  · intro head
    obtain ⟨rest, rfl⟩ := List.head?_eq_some_iff.mp head
    have kind : lineKind ('[' :: rest) = .tuple rest := by
      simp [lineKind, List.isPrefixOf?, List.isPrefixOf]
    rw [acceptable_eq, kind, Bool.and_eq_true, isOk_iff] at accepted
    obtain ⟨fields, read⟩ := accepted.2
    simp [fields?, readLine, kind, read, Except.mapError, Except.map]

theorem acceptable_of_mem {hasTable : Bool} {past : List Text}
    (all : allAcceptable hasTable past = true) {line : Text} (mem : line ∈ past) :
    ∃ earlier, acceptable earlier line = true := by
  induction past generalizing hasTable with
  | nil => cases mem
  | cons first past ih =>
    rw [allAcceptable, Bool.and_eq_true] at all
    rcases List.mem_cons.mp mem with rfl | later
    · exact ⟨hasTable, all.1⟩
    · exact ih all.2 later

theorem lastSection_lines {past : List Text}
    (known : ∀ line ∈ past, (opened? line).isSome = opensTable line) :
    (lastSection past).map Prod.snd =
      if past.any opensTable then some (lastTableLines past) else none := by
  induction past using List.reverseRecOn with
  | nil => rfl
  | append_singleton past line ih =>
    have before := ih fun l mem => known l (List.mem_append_left _ mem)
    have last := known line (by simp)
    rw [lastSection_concat, List.any_append, lastTableLines]
    cases header : opened? line with
    | some t =>
      rw [header, Option.isSome_some] at last
      rw [List.rtakeWhile_concat_neg _ _ _ (by simp [← last])]
      simp [← last]
    | none =>
      rw [header, Option.isSome_none] at last
      rw [List.rtakeWhile_concat_pos _ _ _ (by simp [← last]), ← lastTableLines]
      simp only [List.any_cons, List.any_nil, ← last, Bool.or_false]
      cases found : lastSection past with
      | none => simpa [found] using before
      | some opened =>
        rw [found, Option.map_some] at before
        split_ifs at before with some_header
        rw [if_pos some_header]
        simpa using before

theorem rows_of_accepted {text : Text} {response : QueryResponse}
    (parsed : parseResponse text = .ok response) {line : Text} (mem : line ∈ lines text)
    (header : opensTable line = true) :
    (rows (responseItems response)).length = tupleCount (lastTableLines (lines text)) := by
  have accepted (l : Text) (mem : l ∈ lines text) : ∃ earlier, acceptable earlier l = true :=
    acceptable_of_mem (parseResponse_ok_iff.mp ⟨response, parsed⟩) mem
  have known : ∀ l ∈ lines text, (opened? l).isSome = opensTable l := by
    intro l mem
    obtain ⟨earlier, fine⟩ := accepted l mem
    rw [Bool.eq_iff_iff, opened?_isSome_iff fine, opensTable_iff]
  have found := lastSection_lines known
  rw [if_pos (List.any_eq_true.mpr ⟨line, mem, header⟩)] at found
  obtain ⟨⟨opened, after⟩, last, rfl⟩ := Option.map_eq_some_iff.mp found
  obtain ⟨t, rfl, read⟩ := (parseResponse_answers parsed).of_section last
  rw [rows_table, length_fromTableResult, read.rows, List.length_filterMap_eq_countP, tupleCount]
  refine List.countP_congr fun l mem => ?_
  have inside : l ∈ lines text := by
    have suffix := List.rtakeWhile_suffix (fun line => !opensTable line) (lines text)
    exact suffix.mem (by simpa [lastTableLines] using mem)
  obtain ⟨earlier, fine⟩ := accepted l inside
  rw [fields?_isSome fine]

/-- A reply is never silently truncated exactly when, if it is accepted at all, the last
table has as many `[` lines as each `&1` line declares rows, and each `&1` line at least so
many of its own. -/
theorem untruncated_iff (text : Text) :
    (∀ items, Yields text items → Untruncated text items) ↔
      (AllAcceptable (lines text) → ∀ before line after count,
        lines text = before ++ line :: after → DeclaresRows line count →
          tupleCount (lastTableLines (lines text)) = count.toNat ∧
            count.toNat ≤ tupleCount (tableLines after)) := by
  constructor
  · intro untruncated accepted before line after count split declares
    obtain ⟨response, parsed⟩ := parseResponse_accepted_iff.mpr accepted
    have yields := (yields_iff text _).mpr rfl
    rw [yields_of_ok yields parsed] at yields
    have mem : line ∈ lines text := by simp [split]
    have fits := untruncated _ yields
    have complete := fits.complete (allOk_responseItems _) line mem count declares
    rw [rows_of_accepted parsed mem declares.opensTable] at complete
    refine ⟨complete, Nat.not_lt.mp fun short => ?_⟩
    obtain ⟨e, failed⟩ := fits.reported before line after count split declares short
    have fine := List.all_eq_true.mp (allOk_responseItems response) _ failed
    cases fine
  · intro counted items yields
    cases parsed : parseResponse text with
    | error e =>
      have failed := yields_of_error yields parsed
      subst failed
      refine ⟨fun fine => ?_, fun _ _ _ _ _ _ _ => ⟨e.toError, List.mem_singleton.mpr rfl⟩⟩
      simp [allOk, Except.isOk, Except.toBool] at fine
    | ok response =>
      have same := yields_of_ok yields parsed
      subst same
      have accepted := parseResponse_accepted_iff.mp ⟨response, parsed⟩
      refine ⟨fun _ line mem count declares => ?_, fun before line after count split declares short => ?_⟩
      · obtain ⟨before, after, split⟩ := List.append_of_mem mem
        rw [rows_of_accepted parsed mem declares.opensTable]
        exact (counted accepted before line after count split declares).1
      · have enough := (counted accepted before line after count split declares).2
        omega

def truncatedReply : Text := "&1 0 2 1 1\n% a # name\n[ 1\t]".toList

theorem truncatedReply_silent : ∃ items, Yields truncatedReply items ∧ allOk items = true ∧
    (rows items).length = 1 ∧ ¬ Untruncated truncatedReply items := by
  have parsed : parseResponse truncatedReply = .ok (.table
      { queryId := 0, rowCount := 2, declaredColumns := 1, embeddedTuples := 1,
        columns := [⟨['a'], [], none, none⟩], rows := [[some ['1']]] }) := by
    decide +kernel
  have header : "&1 0 2 1 1".toList ∈ lines truncatedReply := by
    decide +kernel
  have declares : DeclaresRows "&1 0 2 1 1".toList 2 :=
    ⟨" 0 2 1 1".toList, ['0'], ['2'], [['1'], ['1']], rfl, by decide +kernel, by decide +kernel⟩
  have yields := (yields_iff truncatedReply _).mpr rfl
  rw [yields_of_ok yields parsed] at yields
  refine ⟨_, yields, allOk_responseItems _, rfl, fun untruncated => ?_⟩
  have complete := untruncated.complete (allOk_responseItems _) _ header 2 declares
  rw [rows_table] at complete
  exact absurd complete (by decide)

end Truncation

section Sections

def affectedRows : QueryResponse → UInt64
  | .table table => table.rowCount
  | .update affected _ => affected
  | _ => 0

theorem rows_of_ne_table {response : QueryResponse} (h : ∀ t, response ≠ .table t) :
    rows (responseItems response) = [] := by
  cases response with
  | table t => exact absurd rfl (h t)
  | _ => rfl

theorem queryResults_responseItems (response : QueryResponse) :
    queryResults (responseItems response) = [⟨affectedRows response⟩] := by
  cases response with
  | table t => exact queryResults_table t
  | _ => rfl

/-- What an accepted reply yields: the rows and the declared count of its last table, or
without a table no row and the count of its last result. -/
theorem yields_last_section {text : Text} {items : List Item} (yields : Yields text items)
    {response : QueryResponse} (parsed : parseResponse text = .ok response) :
    match lastSection (lines text) with
    | some (header, after) =>
      (rows items).map MonetRow.values = after.filterMap fields? ∧
        queryResults items = [⟨header.rowCount⟩]
    | none =>
      rows items = [] ∧ queryResults items =
        [⟨affectedRows (((lines text).filterMap finished?).getLast?.getD .ok)⟩] := by
  rw [yields_of_ok yields parsed]
  cases parseResponse_answers parsed with
  | @table header after t found read =>
    rw [found]
    dsimp only
    rw [rows_table, values_fromTableResult, queryResults_table, read.rows, ← read.numbers]
    exact ⟨rfl, rfl⟩
  | result absent =>
    rw [absent]
    dsimp only
    refine ⟨rows_of_ne_table fun t => ?_, queryResults_responseItems _⟩
    cases last : ((lines text).filterMap finished?).getLast? with
    | none => exact QueryResponse.noConfusion
    | some r =>
      obtain ⟨line, -, finished⟩ := List.mem_filterMap.mp (List.mem_of_getLast? last)
      exact finished?_ne_table finished t

def twoTables : Text :=
  "&1 0 1 1 1\n% a # name\n[ 1\t]\n&1 1 1 1 1\n% a # name\n[ 2\t]".toList

def secondTable : TableResult :=
  { queryId := 1, rowCount := 1, declaredColumns := 1, embeddedTuples := 1,
    columns := [⟨['a'], [], none, none⟩], rows := [[some ['2']]] }

theorem twoTables_parsed : parseResponse twoTables = .ok (.table secondTable) := by
  decide +kernel

theorem twoTables_section : lastSection (lines twoTables) =
    some ({ secondTable with columns := [], rows := [] },
      ["% a # name".toList, "[ 2\t]".toList]) := by
  decide +kernel

theorem yields_twoTables :
    (rows (responseItems (.table secondTable))).map MonetRow.values =
        ["% a # name".toList, "[ 2\t]".toList].filterMap fields? ∧
      queryResults (responseItems (.table secondTable)) = [⟨1⟩] := by
  have yields := (yields_iff twoTables _).mpr rfl
  rw [yields_of_ok yields twoTables_parsed] at yields
  have result := yields_last_section yields twoTables_parsed
  rw [twoTables_section] at result
  exact result

theorem earlier_table_dropped :
    (∃ items, Yields twoTables items ∧ allOk items = true ∧
      (rows items).map MonetRow.values = [[some ['2']]] ∧
      (lines twoTables).filterMap fields? = [[some ['1']], [some ['2']]]) ∧
    ¬ ∀ text items response, Yields text items → parseResponse text = .ok response →
      (rows items).map MonetRow.values = (lines text).filterMap fields? := by
  have all : (lines twoTables).filterMap fields? = [[some ['1']], [some ['2']]] := by
    decide +kernel
  have yields := (yields_iff twoTables _).mpr rfl
  rw [yields_of_ok yields twoTables_parsed] at yields
  have last : (rows (responseItems (.table secondTable))).map MonetRow.values =
      [[some ['2']]] := by
    rw [rows_table, values_fromTableResult]
    rfl
  refine ⟨⟨_, yields, allOk_responseItems _, last, all⟩, fun every => ?_⟩
  have equal := every _ _ _ yields twoTables_parsed
  rw [last, all] at equal
  exact absurd equal (by decide)

end Sections

end SqlxMonetdb.ReplySections
