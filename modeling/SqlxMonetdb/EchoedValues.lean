import SqlxMonetdb.SelectedValues
import SqlxMonetdb.Substitution

set_option autoImplicit false

namespace SqlxMonetdb.EchoedValues
open TextPrimitives DriverError FramingBlocks Response ResponseRendering Arguments Connection
open SqlTokens Substitution JoinedReplies Values SelectedValues

section Stores

/-- What a server stores for the tokens of a literal, and sends back as a field. It may
write a number in any way. -/
inductive Stores : List Token → Option Text → Prop where
  | null : Stores [.word "NULL".toList] none
  | boolean (b : Bool) : Stores [.word (if b then "true".toList else "false".toList)]
      (some (if b then "true".toList else "false".toList))
  | string (s : Text) : Stores [.string s] (some s)
  | number {digits field : Text} {n : ℕ} (read : parseDigits digits = some n)
      (given : Writes field n) : Stores [.number digits] (some field)
  | negative {digits field : Text} {n : ℕ} (read : parseDigits digits = some n)
      (given : Writes field (-n)) : Stores [.symbol '-', .number digits] (some field)

variable {field : Option Text}

theorem lex_word {c : Char} {cs : Text} {m : Mode}
    (token : sqlScanner.extendAll (start c) cs = some m) : lex (c :: cs) = finish m := by
  have alone := Scanning.Scanner.scan_word token (Scanning.Scanner.ends_nil (S := sqlScanner))
  rw [Scanning.Scanner.scan_nil, List.append_nil, List.append_nil] at alone
  exact alone

theorem lex_decimal (n : ℕ) : lex (decimal n) = [.number (decimal n)] := by
  obtain ⟨c, cs, digits, first⟩ := decimal_cases n
  have others : ∀ d ∈ cs, d.isDigit = true := fun d hd =>
    isDigit_of_mem_decimal (n := n) (by rw [digits]; simp [hd])
  have token : sqlScanner.extendAll (start c) cs = some (.number (c :: cs)) := by
    rw [start_digit first]
    exact extendAll_digits [c] cs others
  rw [digits]
  exact lex_word token

theorem lex_negative (n : ℕ) : lex ('-' :: decimal n) = [.symbol '-', .number (decimal n)] := by
  obtain ⟨c, cs, digits, first⟩ := decimal_cases n
  have other : c ≠ '-' := by
    rintro rfl
    exact absurd first (by decide)
  rw [lex_minus (by simp [digits, other]), lex_decimal]

theorem lex_boolean (b : Bool) : lex (if b then "true".toList else "false".toList) =
    [.word (if b then "true".toList else "false".toList)] := by
  cases b <;> decide

theorem spells_integer {n : ℤ} (stored : Stores (lex (signedDecimal n)) field) :
    ∃ src, field = some src ∧ Writes src n := by
  cases n with
  | ofNat n =>
    rw [signedDecimal, lex_decimal] at stored
    cases stored with
    | number read given =>
      rw [parseDigits_decimal, Option.some_inj] at read
      subst read
      exact ⟨_, rfl, given⟩
  | negSucc n =>
    rw [signedDecimal, lex_negative] at stored
    cases stored with
    | negative read given =>
      rw [parseDigits_decimal, Option.some_inj] at read
      subst read
      exact ⟨_, rfl, given⟩

theorem spells_of_stores {value : BoundValue} (stored : Stores (lex value.literal) field) :
    Spells field value := by
  cases value with
  | boolean b =>
    rw [BoundValue.literal, lex_boolean] at stored
    generalize word : (if b then "true".toList else "false".toList) = text at stored
    cases stored with
    | null => cases b <;> cases word
    | boolean b' => cases b <;> cases b' <;> first | rfl | cases word
  | text s =>
    rw [BoundValue.literal, stringLiteral, lex_word (extendAll_stringLiteral s)] at stored
    cases stored
    rfl
  | null =>
    rw [BoundValue.literal, show lex "NULL".toList = [.word "NULL".toList] by decide] at stored
    generalize word : "NULL".toList = text at stored
    cases stored with
    | null => rfl
    | boolean b => cases b <;> cases word
  | _ => exact spells_integer stored

end Stores

section Statements

variable {t : TableResult} {sql : Text} {values : List BoundValue} {fields : List (Option Text)}

/-- A server that reads the statement of a query as tokens finds those of the template, with
each placeholder replaced by its own literal, and the row in which it sends back what it
stores for the literals decodes to the values that were bound. -/
theorem runQuery_echoes (placeholders : AllPlaceholders sql) (apart : separated sql = true)
    (bound : values.length = (lex sql).count .placeholder)
    (positive : negativeAfterMinus sql values = false)
    (stored : List.Forall₂ (fun value field => Stores (lex value.literal) field) values fields)
    (row : t.rows = [fields]) (width : fields.length = t.columns.length)
    (plain : ∀ c ∈ t.columns, Plain c.name ∧ Plain c.typeName) {text : Text}
    (rendered : RendersTable t text) {wire : List UInt8} (framed : Framed wire (utf8Encode text))
    (rest written : List UInt8) :
    ∃ arguments statement, bindAll values = .ok arguments ∧
      lex statement = replacePlaceholders (lex sql) (arguments.literals.map lex) ∧
      (runQuery ⟨⟨wire ++ rest, written⟩⟩ sql (.ok (some arguments))).2 =
        ⟨⟨rest, written ++ request statement⟩⟩ ∧
      Selects t [values] (runQuery ⟨⟨wire ++ rest, written⟩⟩ sql (.ok (some arguments))).1 := by
  have counted : values.length = sql.count '?' := bound.trans placeholders
  have clean : Clean .idle sql := ⟨by decide, placeholders, apart, fun touches => by cases touches⟩
  have sent := @substituteInto_of_count ⟨values.map BoundValue.literal⟩ sql
    (by simpa using counted.symm)
  have spelled : List.Forall₂ Spells fields values :=
    List.Forall₂.flip (stored.imp fun _ _ => spells_of_stores)
  have holds : Holds t [values] := by
    refine ⟨?_, fun other mem => ?_⟩
    · rw [row]
      exact .cons spelled .nil
    · rw [List.mem_singleton.mp mem, ← width, spelled.length_eq]
  have answered := @runQuery_selects t [values] sql _ (.ok (some ⟨values.map BoundValue.literal⟩))
    sent [] [] .nil plain holds text rendered wire (by simpa [joined] using framed) rest written
  refine ⟨_, _, bindAll_eq values, ?_, answered.2, answered.1⟩
  refine (lex_fill_iff clean counted).mpr ?_
  simp [clash, positive]

def echoTable : TableResult :=
  { queryId := 0, rowCount := 1, declaredColumns := 2, embeddedTuples := 1,
    columns := [⟨['a'], "int".toList, none, none⟩, ⟨['b'], "char".toList, none, none⟩],
    rows := [[some "-5".toList, some "it's".toList]] }

def echoReply : Text :=
  ("&1 0 1 2 1\n% a,\tb # name\n% int,\tchar # type\n% ,\t # length\n% ,\t # typesizes\n" ++
    "[ \"-5\",\t\"it's\"\t]").toList

theorem rendersTable_echoReply : RendersTable echoTable echoReply := by
  have rows : List.Forall₂ (List.Forall₂ RendersField) echoTable.rows
      [["\"-5\"".toList, "\"it's\"".toList]] :=
    .cons (.cons (.quoted .double "-5".toList) (.cons (.quoted .double "it's".toList) .nil)) .nil
  convert RendersTable.intro [] rows (.inl rfl) using 1
  decide +kernel

theorem runQuery_echoes_two : ∃ arguments statement,
    bindAll [.int (-5), .text "it's".toList] = .ok arguments ∧
      lex statement = replacePlaceholders (lex "SELECT ?, ?".toList) (arguments.literals.map lex) ∧
      (runQuery ⟨⟨Framing.encodeMessage (utf8Encode echoReply) [] ++ [], []⟩⟩ "SELECT ?, ?".toList
        (.ok (some arguments))).2 = ⟨⟨[], [] ++ request statement⟩⟩ ∧
      Selects echoTable [[.int (-5), .text "it's".toList]]
        (runQuery ⟨⟨Framing.encodeMessage (utf8Encode echoReply) [] ++ [], []⟩⟩
          "SELECT ?, ?".toList (.ok (some arguments))).1 := by
  have plain : ∀ c ∈ echoTable.columns, Plain c.name ∧ Plain c.typeName := by
    intro c hc
    simp only [echoTable, List.mem_cons, List.not_mem_nil, or_false] at hc
    rcases hc with rfl | rfl
    all_goals exact ⟨⟨by decide, by decide, by decide⟩, ⟨by decide, by decide, by decide⟩⟩
  have five : lex (BoundValue.int (-5)).literal = [.symbol '-', .number ['5']] := by decide +kernel
  have its : lex (BoundValue.text "it's".toList).literal = [.string "it's".toList] :=
    lex_word (extendAll_stringLiteral _)
  have stored : List.Forall₂ (fun (value : BoundValue) field => Stores (lex value.literal) field)
      [.int (-5), .text "it's".toList] [some "-5".toList, some "it's".toList] := by
    refine .cons ?_ (.cons ?_ .nil)
    · rw [five]
      exact .negative (n := 5) (by decide) (.minus (by decide))
    · rw [its]
      exact .string _
  have placeholders : AllPlaceholders "SELECT ?, ?".toList := by
    unfold AllPlaceholders
    decide +kernel
  exact @runQuery_echoes echoTable _ _ _ placeholders (by decide) (by decide +kernel) (by decide)
    stored rfl rfl plain _ rendersTable_echoReply _ (framed_encodeMessage _) [] []

end Statements

end SqlxMonetdb.EchoedValues
