import SqlxMonetdb.LabelledRuns
import SqlxMonetdb.Response

set_option autoImplicit false

namespace SqlxMonetdb.ResponseRendering
open ListSplitting TextPrimitives DriverError Response LabelledRuns

section Rendering

inductive Quote where
  | single
  | double

def Quote.char : Quote → Char
  | .single => '\''
  | .double => '"'

def escapeChar (q c : Char) : Text :=
  if c = '\\' ∨ c = q then ['\\', c]
  else if c = '\n' then ['\\', 'n']
  else if c = '\t' then ['\\', 't']
  else if c = '\r' then ['\\', 'r']
  else [c]

def escape (q : Char) (s : Text) : Text := s.flatMap (escapeChar q)

/-- Text that may stand in a row without quotes. -/
structure Bare (s : Text) : Prop where
  nonempty : s ≠ []
  notNull : s ≠ "NULL".toList
  unquoted : ∀ c ∈ s.head?, c ≠ '\'' ∧ c ≠ '"'
  noTab : '\t' ∉ s
  noNewline : '\n' ∉ s
  trimmed : Trimmed isWhitespace s

inductive RendersField : Option Text → Text → Prop where
  | null : RendersField none "NULL".toList
  | quoted (q : Quote) (s : Text) : RendersField (some s) (q.char :: (escape q.char s ++ [q.char]))
  | bare {s : Text} (h : Bare s) : RendersField (some s) s

def separator : Text := ",\t".toList

def rowLine (texts : List Text) : Text :=
  "[ ".toList ++ separator.intercalate texts ++ "\t]".toList

def headerLine (identity : Text) (values : List Text) : Text :=
  "% ".toList ++ separator.intercalate values ++ " # ".toList ++ identity

def lengthText : Option UInt64 → Text
  | none => []
  | some n => decimal n.toNat

def typesizesText : Option (UInt64 × Option UInt64) → Text
  | none => []
  | some (first, none) => decimal first.toNat
  | some (first, some second) => decimal first.toNat ++ ' ' :: decimal second.toNat

def columnLines (columns : List ColumnMeta) : List Text :=
  if columns = [] then []
  else [headerLine "name".toList (columns.map fun c => c.name),
    headerLine "type".toList (columns.map fun c => c.typeName),
    headerLine "length".toList (columns.map fun c => lengthText c.length),
    headerLine "typesizes".toList (columns.map fun c => typesizesText c.typesizes)]

def tableNumbers (t : TableResult) (trailing : List ℤ) : List Text :=
  signedDecimal t.queryId.toInt :: decimal t.rowCount.toNat :: decimal t.declaredColumns.toNat ::
    decimal t.embeddedTuples.toNat :: trailing.map signedDecimal

def tableLine (t : TableResult) (trailing : List ℤ) : Text :=
  "&1 ".toList ++ [' '].intercalate (tableNumbers t trailing)

/-- `text` is one of the wire texts of `t`: any further numbers on the `&1` line, any
rendering of each field, and a newline after the last line or none. -/
inductive RendersTable (t : TableResult) : Text → Prop where
  | intro (trailing : List ℤ) {texts : List (List Text)}
      (rows : List.Forall₂ (List.Forall₂ RendersField) t.rows texts)
      {ending : Text} (end_of_text : ending = [] ∨ ending = ['\n']) :
      RendersTable t (['\n'].intercalate
        (tableLine t trailing :: (columnLines t.columns ++ texts.map rowLine)) ++ ending)

/-- A column name or type name the header lines can carry. -/
structure Plain (s : Text) : Prop where
  noComma : ',' ∉ s
  noNewline : '\n' ∉ s
  trimmed : Trimmed isWhitespace s

end Rendering

section PlainText

theorem plain_of_digits {s : Text} (h : ∀ c ∈ s, c.isDigit = true) : Plain s where
  noComma mem := absurd (h _ mem) (by decide)
  noNewline mem := absurd (h _ mem) (by decide)
  trimmed := trimmed_of_forall fun c hc => isWhitespace_of_isDigit (h c hc)

theorem plain_decimal (n : ℕ) : Plain (decimal n) :=
  plain_of_digits fun _ => isDigit_of_mem_decimal

theorem plain_lengthText (n : Option UInt64) : Plain (lengthText n) := by
  cases n with
  | none => exact plain_of_digits (by simp [lengthText])
  | some n => exact plain_decimal _

theorem plain_typesizesText (n : Option (UInt64 × Option UInt64)) : Plain (typesizesText n) := by
  match n with
  | none => exact plain_of_digits (by simp [typesizesText])
  | some (first, none) => exact plain_decimal _
  | some (first, some second) =>
    have hf := plain_decimal first.toNat
    have hs := plain_decimal second.toNat
    refine ⟨?_, ?_, ?_⟩
    · simp [typesizesText, hf.noComma, hs.noComma]
    · simp [typesizesText, hf.noNewline, hs.noNewline]
    · exact trimmed_append (decimal_ne_nil _) (decimal_ne_nil _) hf.trimmed hs.trimmed [' ']

end PlainText

section Fields

theorem unescape_cons_of_ne {c : Char} (h : c ≠ '\\') (cs : Text) :
    unescape (c :: cs) = c :: unescape cs := by
  cases cs with
  | nil => rfl
  | cons d cs => rw [unescape, if_neg h]

theorem unescape_pair (d : Char) (cs : Text) :
    unescape ('\\' :: d :: cs) = escaped d ++ unescape cs := by
  rw [unescape, if_pos rfl]

theorem unescape_escapeChar (q : Quote) (c : Char) (cs : Text) :
    unescape (escapeChar q.char c ++ cs) = c :: unescape cs := by
  by_cases special : c = '\\' ∨ c = q.char
  · have kept : escaped c = [c] := by
      rcases special with rfl | rfl
      · rfl
      · cases q <;> rfl
    rw [escapeChar, if_pos special, List.cons_append, List.cons_append, unescape_pair, kept]
    rfl
  · obtain ⟨notBackslash, -⟩ := not_or.mp special
    rw [escapeChar, if_neg special]
    split_ifs with newline tab cr
    · subst newline
      exact unescape_pair 'n' cs
    · subst tab
      exact unescape_pair 't' cs
    · subst cr
      exact unescape_pair 'r' cs
    · exact unescape_cons_of_ne notBackslash cs

theorem unescape_escape (q : Quote) (s : Text) : unescape (escape q.char s) = s := by
  induction s with
  | nil => rfl
  | cons c s ih =>
    change unescape (escapeChar q.char c ++ escape q.char s) = c :: s
    rw [unescape_escapeChar, ih]

theorem not_mem_escape {q c : Char} (hq : c ≠ q) (hb : c ≠ '\\') (letters : c ≠ 'n' ∧ c ≠ 't' ∧ c ≠ 'r')
    (control : c = '\n' ∨ c = '\t' ∨ c = '\r') (s : Text) : c ∉ escape q s := by
  intro mem
  obtain ⟨d, -, hd⟩ := List.mem_flatMap.mp mem
  obtain ⟨hn, ht, hr⟩ := letters
  unfold escapeChar at hd
  split_ifs at hd with special newline tab cr
  · rcases special with rfl | rfl
    · simp [hb] at hd
    · simp [hb, hq] at hd
  · simp [hb, hn] at hd
  · simp [hb, ht] at hd
  · simp [hb, hr] at hd
  · have same : c = d := by simpa using hd
    subst same
    rcases control with h | h | h
    · exact newline h
    · exact tab h
    · exact cr h

theorem unescapeField_cons (quote : Char) (tail : Text) :
    unescapeField (quote :: tail) =
      if quote :: tail = "NULL".toList then .ok none
      else if quote = '\'' ∨ quote = '"' then
        match ([quote].isPrefixOf? (quote :: tail)).bind fun s => [quote].isSuffixOf? s with
        | none => .ok (some (quote :: tail))
        | some quoted => .ok (some (unescape quoted))
      else .ok (some (quote :: tail)) := rfl

theorem unescapeField_quoted (q : Quote) (body : Text) :
    unescapeField (q.char :: (body ++ [q.char])) = .ok (some (unescape body)) := by
  have isQuote : q.char = '\'' ∨ q.char = '"' := by cases q <;> decide
  have notNull : q.char :: (body ++ [q.char]) ≠ "NULL".toList := by
    cases q <;> simp [Quote.char]
  have stripped : ([q.char].isPrefixOf? (q.char :: (body ++ [q.char]))).bind
      (fun s => [q.char].isSuffixOf? s) = some body := by
    change ([q.char].isPrefixOf? ([q.char] ++ (body ++ [q.char]))).bind _ = _
    rw [isPrefixOf?_append, Option.bind_some, isSuffixOf?_append]
  rw [unescapeField_cons, if_neg notNull, if_pos isQuote, stripped]

/-- What the row parser needs to know of a rendered field. -/
structure FieldText (field : Option Text) (text : Text) : Prop where
  nonempty : text ≠ []
  noTab : '\t' ∉ text
  noNewline : '\n' ∉ text
  trimmed : Trimmed isWhitespace text
  read : unescapeField text = .ok field

theorem fieldText_quoted (q : Quote) (s : Text) :
    FieldText (some s) (q.char :: (escape q.char s ++ [q.char])) where
  nonempty := by simp
  noTab := by
    have inside := not_mem_escape (q := q.char) (c := '\t') (by cases q <;> decide) (by decide)
      (by decide) (by decide) s
    have quote : '\t' ≠ q.char := by cases q <;> decide
    simp [inside, quote]
  noNewline := by
    have inside := not_mem_escape (q := q.char) (c := '\n') (by cases q <;> decide) (by decide)
      (by decide) (by decide) s
    have quote : '\n' ≠ q.char := by cases q <;> decide
    simp [inside, quote]
  trimmed := by
    have quote : isWhitespace q.char = false := by cases q <;> decide
    refine ⟨fun c hc => ?_, fun c hc => ?_⟩
    · obtain rfl : q.char = c := by simpa using hc
      exact quote
    · rw [← List.cons_append, List.getLast?_concat] at hc
      obtain rfl : q.char = c := by simpa using hc
      exact quote
  read := by rw [unescapeField_quoted, unescape_escape]

theorem fieldText_bare {s : Text} (h : Bare s) : FieldText (some s) s where
  nonempty := h.nonempty
  noTab := h.noTab
  noNewline := h.noNewline
  trimmed := h.trimmed
  read := by
    cases s with
    | nil => exact absurd rfl h.nonempty
    | cons c s =>
      obtain ⟨notSingle, notDouble⟩ := h.unquoted c rfl
      rw [unescapeField_cons, if_neg h.notNull, if_neg (by simp [notSingle, notDouble])]

theorem RendersField.fieldText {field : Option Text} {text : Text} (h : RendersField field text) :
    FieldText field text := by
  cases h with
  | null => exact ⟨by decide, by decide, by decide, by decide, by decide⟩
  | quoted q s => exact fieldText_quoted q s
  | bare h => exact fieldText_bare h

theorem exists_field_of_mem {fields : List (Option Text)} {texts : List Text}
    (h : List.Forall₂ FieldText fields texts) : ∀ t ∈ texts, ∃ field, FieldText field t := by
  induction h with
  | nil => simp
  | @cons field text _ _ head _ ih =>
    intro t ht
    rcases List.mem_cons.mp ht with rfl | ht
    · exact ⟨field, head⟩
    · exact ih t ht

theorem mapM_unescapeField {fields : List (Option Text)} {texts : List Text}
    (h : List.Forall₂ FieldText fields texts) :
    texts.mapM (fun text => unescapeField (trim text)) = .ok fields := by
  induction h with
  | nil => rfl
  | cons head _ ih =>
    rw [List.mapM_cons, trim, trimBy_of_trimmed head.trimmed, head.read, ih]
    rfl

theorem parseTupleFields_rowLine {fields : List (Option Text)} {texts : List Text}
    (h : List.Forall₂ FieldText fields texts) :
    parseTupleFields (' ' :: (separator.intercalate texts ++ "\t]".toList)) = .ok fields := by
  have suffix : [']'].isSuffixOf? (' ' :: (separator.intercalate texts ++ "\t]".toList)) =
      some ([' '] ++ (separator.intercalate texts ++ ['\t'])) := by
    rw [isSuffixOf?_eq_some_iff]
    simp
  have padding : trim ([' '] ++ (separator.intercalate texts ++ ['\t'])) =
      trim (separator.intercalate texts) := by
    rw [trim, trimBy_pad_left whitespace_space, trimBy_pad_right whitespace_tab]
    rfl
  rw [parseTupleFields, suffix]
  dsimp only
  rw [padding]
  cases texts with
  | nil =>
    cases h
    rfl
  | cons text texts =>
    have all := exists_field_of_mem h
    obtain ⟨nonempty, trimmed⟩ := trimmed_intercalate separator (List.cons_ne_nil text texts)
      fun t ht => (all t ht).elim fun _ ft => ⟨ft.nonempty, ft.trimmed⟩
    have cut := @splitOnSeq_intercalate Char [','] '\t' _ (by decide) _ (List.cons_ne_nil text texts)
      fun t ht => (all t ht).elim fun _ ft => ft.noTab
    rw [trim, trimBy_of_trimmed trimmed, if_neg nonempty]
    change (splitOnSeq ([','] ++ ['\t']) (([','] ++ ['\t']).intercalate (text :: texts))).mapM _ = _
    rw [cut, mapM_unescapeField h]

end Fields

section Headers

theorem parseLengthValue_lengthText (n : Option UInt64) :
    parseLengthValue (lengthText n) = .ok n := by
  have trimmed : trim (lengthText n) = lengthText n := trimBy_of_trimmed (plain_lengthText n).trimmed
  unfold parseLengthValue
  rw [trimmed]
  cases n with
  | none => rfl
  | some n =>
    dsimp only [lengthText]
    rw [if_neg (decimal_ne_nil _), parseField, parseU64_decimal]
    rfl

theorem splitWhitespace_typesizesText (first : UInt64) (second : Option UInt64) :
    splitWhitespace (typesizesText (some (first, second))) =
      decimal first.toNat :: (second.map fun n => decimal n.toNat).toList := by
  have word (n : UInt64) : decimal n.toNat ≠ [] ∧ ∀ c ∈ decimal n.toNat, isWhitespace c = false :=
    ⟨decimal_ne_nil _, fun _ => not_whitespace_of_mem_decimal⟩
  cases second with
  | none =>
    have split := @splitWhitespace_words [decimal first.toNat] (by simpa using word first)
    simpa [typesizesText] using split
  | some second =>
    have split := @splitWhitespace_words [decimal first.toNat, decimal second.toNat]
      (by simpa using And.intro (word first) (word second))
    simpa [typesizesText] using split

theorem parseTypesizesValue_typesizesText (n : Option (UInt64 × Option UInt64)) :
    parseTypesizesValue (typesizesText n) = .ok n := by
  have trimmed : trim (typesizesText n) = typesizesText n :=
    trimBy_of_trimmed (plain_typesizesText n).trimmed
  unfold parseTypesizesValue
  rw [trimmed]
  match n with
  | none => rfl
  | some (first, second) =>
    have nonempty : typesizesText (some (first, second)) ≠ [] := by
      cases second <;> simp [typesizesText, decimal_ne_nil]
    rw [if_neg nonempty, splitWhitespace_typesizesText]
    cases second with
    | none => simp [parsed, parseU64_decimal, bind, Except.bind]
    | some second => simp [parsed, parseU64_decimal, bind, Except.bind, Except.map]

theorem parseHeaderValues_headerLine {identity : Text} (noHash : '#' ∉ identity)
    (trimmed : Trimmed isWhitespace identity) {values : List Text} (nonempty : values ≠ [])
    (plain : ∀ v ∈ values, Plain v) :
    parseHeaderValues (' ' :: (separator.intercalate values ++ " # ".toList ++ identity)) =
      .ok (identity, values) := by
  have cut : rsplitOnce '#' (' ' :: (separator.intercalate values ++ " # ".toList ++ identity)) =
      some ([' '] ++ separator.intercalate values ++ [' '], [' '] ++ identity) := by
    have absent : '#' ∉ [' '] ++ identity := by simp [noHash]
    simpa using rsplitOnce_append ([' '] ++ separator.intercalate values ++ [' ']) absent
  have fields : ((separator.intercalate values).splitOn ',').map (trimBy isWhitespace) = values :=
    map_trimBy_splitOn_intercalate ['\t'] (by decide) whitespace_tab nonempty
      (fun v hv => (plain v hv).noComma) fun v hv => (plain v hv).trimmed
  have name : trim ([' '] ++ identity) = identity := by
    rw [trim, trimBy_pad_left whitespace_space, trimBy_of_trimmed trimmed]
  rw [parseHeaderValues, cut]
  dsimp only
  rw [name]
  change Except.ok (identity, ((trimBy isWhitespace _).splitOn ',').map (trimBy isWhitespace)) = _
  rw [map_trimBy_splitOn_trimBy (by decide),
    map_trimBy_splitOn_pad_right whitespace_space (by decide),
    map_trimBy_splitOn_pad_left whitespace_space (by decide), fields]

theorem zipColumns_map {α : Type} {assign : ColumnMeta → Text → Except MonetError ColumnMeta}
    {before after : α → ColumnMeta} {value : α → Text} {items : List α}
    (h : ∀ c ∈ items, assign (before c) (value c) = .ok (after c)) :
    zipColumns assign (items.map before) (items.map value) = .ok (items.map after) := by
  induction items with
  | nil => rfl
  | cons c items ih =>
    have rest := ih fun d hd => h d (by simp [hd])
    rw [List.map_cons, List.map_cons, zipColumns, h c (by simp), rest]
    rfl

theorem parseLine_headerLine {identity : Text} (noHash : '#' ∉ identity)
    (trimmed : Trimmed isWhitespace identity)
    {assign : ColumnMeta → Text → Except MonetError ColumnMeta}
    (known : headerAssignment identity = some assign) (before after : ColumnMeta → ColumnMeta)
    {value : ColumnMeta → Text} {columns : List ColumnMeta} (nonempty : columns ≠ [])
    (plain : ∀ c ∈ columns, Plain (value c))
    (assigned : ∀ c ∈ columns, assign (before c) (value c) = .ok (after c))
    {t : TableResult} (sized : resizeColumns t.columns columns.length = columns.map before)
    (result : Option QueryResponse) :
    parseLine ⟨some t, result⟩ (headerLine identity (columns.map value)) =
      .ok ⟨some { t with columns := columns.map after }, result⟩ := by
  have kind : lineKind (headerLine identity (columns.map value)) =
      .header (' ' :: (separator.intercalate (columns.map value) ++ " # ".toList ++ identity)) := by
    simp [lineKind, headerLine, List.isPrefixOf?]
  have read := @parseHeaderValues_headerLine _ noHash trimmed (columns.map value)
    (by simpa using nonempty) (by simpa using plain)
  rw [parseLine, kind]
  dsimp only
  rw [read]
  simp only [Except.mapError, bind, Except.bind, openTable, applyHeaderValues, known,
    List.length_map, sized, zipColumns_map assigned, Except.map]

theorem resizeColumns_self (columns : List ColumnMeta) :
    resizeColumns columns columns.length = columns := by
  simp [resizeColumns]

theorem resizeColumns_nil {α : Type} (items : List α) :
    resizeColumns [] items.length = items.map fun _ => ColumnMeta.fresh := by
  cases items <;> simp [resizeColumns, List.replicate_succ]

/-- The four header lines build the columns, each line one more field of every column. -/
theorem columnLines_read {columns : List ColumnMeta}
    (plain : ∀ c ∈ columns, Plain c.name ∧ Plain c.typeName) {t : TableResult}
    (empty : t.columns = []) (result : Option QueryResponse) :
    Runs (accepts parseLine) ⟨some t, result⟩ (columnLines columns)
      ⟨some { t with columns }, result⟩ := by
  unfold columnLines
  split
  · rename_i none
    subst none
    rw [← empty]
    exact .refl _
  · rename_i nonempty
    have resized (g : ColumnMeta → ColumnMeta) :
        resizeColumns (columns.map g) columns.length = columns.map g := by
      simpa using resizeColumns_self (columns.map g)
    refine .next (parseLine_headerLine (by decide) (by decide) rfl
      (fun _ => ColumnMeta.fresh) (fun c => ⟨c.name, [], none, none⟩) nonempty
      (fun c hc => (plain c hc).1) (fun _ _ => rfl) (by rw [empty, resizeColumns_nil]) result) ?_
    refine .next (parseLine_headerLine (by decide) (by decide) rfl
      _ (fun c => ⟨c.name, c.typeName, none, none⟩) nonempty
      (fun c hc => (plain c hc).2) (fun _ _ => rfl) (resized _) result) ?_
    refine .next (parseLine_headerLine (by decide) (by decide) rfl
      _ (fun c => ⟨c.name, c.typeName, c.length, none⟩) nonempty
      (fun c _ => plain_lengthText c.length)
      (fun c _ => by rw [parseLengthValue_lengthText]; rfl) (resized _) result) ?_
    refine .next (parseLine_headerLine (by decide) (by decide) rfl
      _ (fun c => c) nonempty (fun c _ => plain_typesizesText c.typesizes)
      (fun c _ => by rw [parseTypesizesValue_typesizesText]; rfl) (resized _) result) ?_
    simpa using Runs.refl _

end Headers

section Tables

theorem signedDecimal_ne_nil (n : ℤ) : signedDecimal n ≠ [] := by
  cases n with
  | ofNat n => exact decimal_ne_nil n
  | negSucc n => exact List.cons_ne_nil _ _

theorem not_whitespace_of_mem_signedDecimal {n : ℤ} {c : Char} (h : c ∈ signedDecimal n) :
    isWhitespace c = false := by
  cases n with
  | ofNat n => exact not_whitespace_of_mem_decimal h
  | negSucc n =>
    rcases List.mem_cons.mp h with rfl | h
    · decide
    · exact not_whitespace_of_mem_decimal h

theorem tableNumbers_words (t : TableResult) (trailing : List ℤ) :
    ∀ w ∈ tableNumbers t trailing, w ≠ [] ∧ ∀ c ∈ w, isWhitespace c = false := by
  have signed (n : ℤ) : signedDecimal n ≠ [] ∧ ∀ c ∈ signedDecimal n, isWhitespace c = false :=
    ⟨signedDecimal_ne_nil n, fun _ => not_whitespace_of_mem_signedDecimal⟩
  have unsigned (n : ℕ) : decimal n ≠ [] ∧ ∀ c ∈ decimal n, isWhitespace c = false :=
    signed (Int.ofNat n)
  intro w hw
  simp only [tableNumbers, List.mem_cons, List.mem_map] at hw
  rcases hw with rfl | rfl | rfl | rfl | ⟨n, -, rfl⟩
  · exact signed _
  · exact unsigned _
  · exact unsigned _
  · exact unsigned _
  · exact signed n

def opened (t : TableResult) : TableResult := { t with columns := [], rows := [] }

theorem parseLine_tableLine (t : TableResult) (trailing : List ℤ) (slots : Slots) :
    parseLine slots (tableLine t trailing) = .ok { slots with table := some (opened t) } := by
  have kind : lineKind (tableLine t trailing) =
      .table (' ' :: [' '].intercalate (tableNumbers t trailing)) := by
    simp [lineKind, tableLine, List.isPrefixOf?, List.isPrefixOf]
  have words : splitWhitespace (' ' :: [' '].intercalate (tableNumbers t trailing)) =
      tableNumbers t trailing := by
    rw [splitWhitespace_space, splitWhitespace_words (tableNumbers_words t trailing)]
  rw [parseLine, kind]
  dsimp only
  rw [parseTableHeader, words, tableNumbers]
  simp only [parseField, parsed, parseI64_signedDecimal, parseU64_decimal, bind, Except.bind,
    Except.mapError, opened]

theorem parseLine_rowLine {fields : List (Option Text)} {texts : List Text}
    (h : List.Forall₂ RendersField fields texts) (t : TableResult) (result : Option QueryResponse) :
    parseLine ⟨some t, result⟩ (rowLine texts) =
      .ok ⟨some { t with rows := t.rows ++ [fields] }, result⟩ := by
  have kind : lineKind (rowLine texts) =
      .tuple (' ' :: (separator.intercalate texts ++ "\t]".toList)) := by
    simp [lineKind, rowLine, List.isPrefixOf?, List.isPrefixOf]
  have read := parseTupleFields_rowLine (h.imp fun _ _ => RendersField.fieldText)
  rw [parseLine, kind]
  dsimp only
  rw [read]
  rfl

theorem rowLines_read {rows : List (List (Option Text))} {texts : List (List Text)}
    (h : List.Forall₂ (List.Forall₂ RendersField) rows texts) (t : TableResult)
    (result : Option QueryResponse) :
    Runs (accepts parseLine) ⟨some t, result⟩ (texts.map rowLine)
      ⟨some { t with rows := t.rows ++ rows }, result⟩ := by
  induction h generalizing t with
  | nil => simpa using Runs.refl _
  | @cons fields _ _ _ head _ ih =>
    refine .next (parseLine_rowLine head t result) ?_
    have rest := ih { t with rows := t.rows ++ [fields] }
    simpa only [List.append_assoc, List.singleton_append] using rest

theorem newline_not_mem_headerLine {identity : Text} (hi : '\n' ∉ identity) {values : List Text}
    (plain : ∀ v ∈ values, Plain v) : '\n' ∉ headerLine identity values := by
  have inside : '\n' ∉ separator.intercalate values :=
    not_mem_intercalate (by decide) fun v hv => (plain v hv).noNewline
  simp [headerLine, inside, hi]

theorem newline_not_mem_rowLine {fields : List (Option Text)} {texts : List Text}
    (h : List.Forall₂ RendersField fields texts) : '\n' ∉ rowLine texts := by
  have all := exists_field_of_mem (h.imp fun _ _ => RendersField.fieldText)
  have inside : '\n' ∉ separator.intercalate texts :=
    not_mem_intercalate (by decide) fun text ht => (all text ht).elim fun _ ft => ft.noNewline
  simp [rowLine, inside]

theorem newline_not_mem_tableLine (t : TableResult) (trailing : List ℤ) :
    '\n' ∉ tableLine t trailing := by
  have inside : '\n' ∉ [' '].intercalate (tableNumbers t trailing) :=
    not_mem_intercalate (by decide) fun w hw mem =>
      absurd ((tableNumbers_words t trailing w hw).2 '\n' mem) (by decide)
  simp [tableLine, inside]

theorem newline_not_mem_columnLines {columns : List ColumnMeta}
    (plain : ∀ c ∈ columns, Plain c.name ∧ Plain c.typeName) :
    ∀ line ∈ columnLines columns, '\n' ∉ line := by
  intro line mem
  unfold columnLines at mem
  split at mem
  · cases mem
  · simp only [List.mem_cons, List.not_mem_nil, or_false] at mem
    rcases mem with rfl | rfl | rfl | rfl
    · exact newline_not_mem_headerLine (by decide) (by simpa using fun c hc => (plain c hc).1)
    · exact newline_not_mem_headerLine (by decide) (by simpa using fun c hc => (plain c hc).2)
    · exact newline_not_mem_headerLine (by decide)
        (by simpa using fun (c : ColumnMeta) _ => plain_lengthText c.length)
    · exact newline_not_mem_headerLine (by decide)
        (by simpa using fun (c : ColumnMeta) _ => plain_typesizesText c.typesizes)

theorem rows_newline {rows : List (List (Option Text))} {texts : List (List Text)}
    (h : List.Forall₂ (List.Forall₂ RendersField) rows texts) :
    ∀ line ∈ texts.map rowLine, '\n' ∉ line := by
  induction h with
  | nil => simp
  | cons head _ ih =>
    intro line mem
    rcases List.mem_cons.mp mem with rfl | mem
    · exact newline_not_mem_rowLine head
    · exact ih line mem

/-- A final newline only adds a blank line, which changes no slot. -/
theorem foldlM_ending {lines : List Text} (nonempty : lines ≠ [])
    (noNewline : ∀ line ∈ lines, '\n' ∉ line) {ending : Text}
    (end_of_text : ending = [] ∨ ending = ['\n']) {slots final : Slots}
    (run : Runs (accepts parseLine) slots lines final) :
    ((['\n'].intercalate lines ++ ending).splitOn '\n').foldlM parseLine slots = .ok final := by
  have cut := List.splitOn_intercalate '\n' noNewline nonempty
  rw [foldlM_ok_iff]
  rcases end_of_text with rfl | rfl
  · rw [List.append_nil, cut]
    exact run
  · rw [List.splitOn_append_cons_self, cut]
    have blank : Runs (accepts parseLine) final [[]] final := .next rfl (.refl _)
    exact Runs.append_iff.mpr ⟨final, run, blank⟩

theorem runs_rendered {t : TableResult} {text : Text}
    (plain : ∀ c ∈ t.columns, Plain c.name ∧ Plain c.typeName) (h : RendersTable t text)
    (slots : Slots) :
    Runs (accepts parseLine) slots (text.splitOn '\n') ⟨some t, slots.result⟩ := by
  obtain ⟨trailing, rows, end_of_text⟩ := h
  rename_i texts ending
  have header := parseLine_tableLine t trailing slots
  have columns := columnLines_read plain (t := opened t) rfl slots.result
  have body := rowLines_read rows { opened t with columns := t.columns } slots.result
  have noNewline : ∀ line ∈ tableLine t trailing :: (columnLines t.columns ++ texts.map rowLine),
      '\n' ∉ line := by
    simp only [List.forall_mem_cons, List.forall_mem_append]
    exact ⟨newline_not_mem_tableLine t trailing, newline_not_mem_columnLines plain,
      rows_newline rows⟩
  exact foldlM_ok_iff.mp (foldlM_ending (List.cons_ne_nil _ _) noNewline end_of_text
    (.next header (Runs.append_iff.mpr ⟨_, columns, body⟩)))

/-- Every rendering of a table is read back as that table. -/
theorem parseResponse_of_rendersTable {t : TableResult} {text : Text}
    (plain : ∀ c ∈ t.columns, Plain c.name ∧ Plain c.typeName) (h : RendersTable t text) :
    parseResponse text = .ok (.table t) := by
  rw [parseResponse, foldlM_ok_iff.mpr (runs_rendered plain h _)]
  rfl

/-- A column and a field that use the wire's special characters. -/
def widgetTable : TableResult :=
  { queryId := -1, rowCount := 2, declaredColumns := 1, embeddedTuples := 2,
    columns := [⟨"na#me".toList, "varchar".toList, some 8, some (8, none)⟩],
    rows := [[some "a,\t'\\b\n".toList], [none]] }

theorem parseResponse_widgetTable :
    parseResponse ("&1 -1 2 1 2 6\n% na#me # name\n% varchar # type\n% 8 # length\n" ++
      "% 8 # typesizes\n[ 'a,\\t\\'\\\\b\\n'\t]\n[ NULL\t]\n").toList = .ok (.table widgetTable) := by
  have rows : List.Forall₂ (List.Forall₂ RendersField) widgetTable.rows
      [["'a,\\t\\'\\\\b\\n'".toList], ["NULL".toList]] :=
    .cons (.cons (.quoted .single "a,\t'\\b\n".toList) .nil) (.cons (.cons .null .nil) .nil)
  have rendered := RendersTable.intro [6] rows (.inr rfl)
  have read := parseResponse_of_rendersTable (t := widgetTable) (by
    intro c hc
    obtain rfl := List.mem_singleton.mp hc
    exact ⟨⟨by decide, by decide, by decide⟩, ⟨by decide, by decide, by decide⟩⟩) rendered
  exact read

end Tables

end SqlxMonetdb.ResponseRendering
