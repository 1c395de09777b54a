import SqlxMonetdb.Arguments
import SqlxMonetdb.SqlTokens

set_option autoImplicit false

namespace SqlxMonetdb.Substitution
open TextPrimitives DriverError Scanning SqlTokens Arguments

section Templates

def sticky (c : Char) : Bool := isIdentifierChar c || c == '\'' || c == '"' || c == '?'

/-- No `?` touches an identifier character, a digit, a quote or another `?`. -/
def separated : Text → Bool
  | a :: b :: cs =>
    !(a == '?' && sticky b) && !(b == '?' && sticky a) && separated (b :: cs)
  | _ => true

def AllPlaceholders (sql : Text) : Prop := (lex sql).count .placeholder = sql.count '?'

def replacePlaceholders : List Token → List (List Token) → List Token
  | [], _ => []
  | .placeholder :: tokens, literals =>
    literals.head?.getD [] ++ replacePlaceholders tokens literals.tail
  | token :: tokens, literals => token :: replacePlaceholders tokens literals

def negative : BoundValue → Bool
  | .tinyint n => n.toInt < 0
  | .smallint n => n.toInt < 0
  | .int n => n.toInt < 0
  | .bigint n => n.toInt < 0
  | _ => false

/-- Some `?` directly behind a `-` is bound to a negative number. -/
def negativeAfterMinus : Text → List BoundValue → Bool
  | [], _ => false
  | c :: cs, values =>
    if c = '?' then negativeAfterMinus cs values.tail
    else (c == '-' && cs.head? == some '?' && values.head?.any negative) ||
      negativeAfterMinus cs values

theorem replacePlaceholders_append {tokens : List Token} (h : tokens.count .placeholder = 0)
    (rest : List Token) (literals : List (List Token)) :
    replacePlaceholders (tokens ++ rest) literals = tokens ++ replacePlaceholders rest literals := by
  induction tokens with
  | nil => rfl
  | cons token tokens ih =>
    have other : token ≠ .placeholder := by
      rintro rfl
      simp at h
    have tail := ih (by simpa [other] using h)
    rw [List.cons_append, replacePlaceholders, tail]
    · rfl
    · exact other

end Templates

section Literals

theorem extendAll_digits (ds more : Text) (h : ∀ c ∈ more, c.isDigit = true) :
    sqlScanner.extendAll (.number ds) more = some (.number (ds ++ more)) := by
  induction more generalizing ds with
  | nil => simp [Scanner.extendAll]
  | cons c more ih =>
    have digit : extend (.number ds) c = some (.number (ds ++ [c])) := if_pos (h c (by simp))
    change (extend (.number ds) c).bind _ = _
    rw [digit]
    simpa using ih (ds ++ [c]) fun d hd => h d (by simp [hd])

theorem extendAll_quoted (value s : Text) :
    sqlScanner.extendAll (.string value) (quoted s) = some (.string (value ++ s)) := by
  induction s generalizing value with
  | nil => simp [quoted, Scanner.extendAll]
  | cons c s ih =>
    have split : quoted (c :: s) = (if c = '\'' then ['\'', '\''] else [c]) ++ quoted s := rfl
    have one : sqlScanner.extendAll (.string value) (if c = '\'' then ['\'', '\''] else [c]) =
        some (.string (value ++ [c])) := by
      by_cases quote : c = '\''
      · subst quote
        rfl
      · simp [Scanner.extendAll, sqlScanner, extend, quote]
    rw [split, Scanner.extendAll_append, one, Option.bind_some, ih]
    simp

theorem start_digit {c : Char} (h : c.isDigit = true) : start c = .number [c] := by
  simp [start, isWhitespace_of_isDigit h, h]

def touching : Mode → Bool
  | .word _ => true
  | .number _ => true
  | .stringQuote _ => true
  | .identifierQuote _ => true
  | _ => false

theorem extend_of_touching {m : Mode} {c : Char} (touches : touching m = true)
    (h : sticky c = false) : extend m c = none := by
  simp only [sticky, isIdentifierChar, Bool.or_eq_false_iff, beq_eq_false_iff_ne] at h
  obtain ⟨⟨⟨⟨noStart, noDigit⟩, noQuote⟩, noDouble⟩, -⟩ := h
  cases m with
  | word name => simp [extend, isIdentifierChar, noStart, noDigit]
  | number digits => simp [extend, noDigit]
  | stringQuote value => simp [extend, noQuote]
  | identifierQuote name => simp [extend, noDouble]
  | _ => cases touches

theorem lex_token_append {c : Char} {cs rest : Text} {m : Mode}
    (token : sqlScanner.extendAll (start c) cs = some m) (touches : touching m = true)
    (h : ∀ c ∈ rest.head?, sticky c = false) :
    lex (c :: cs ++ rest) = lex (c :: cs) ++ lex rest :=
  Scanner.scan_word_append token fun d hd => extend_of_touching touches (h d hd)

theorem lex_decimal_append (n : ℕ) {rest : Text} (h : ∀ c ∈ rest.head?, sticky c = false) :
    lex (decimal n ++ rest) = lex (decimal n) ++ lex rest := by
  obtain ⟨c, cs, digits, first⟩ := decimal_cases n
  have others : ∀ d ∈ cs, d.isDigit = true := fun d hd =>
    isDigit_of_mem_decimal (n := n) (by rw [digits]; simp [hd])
  have token : sqlScanner.extendAll (start c) cs = some (.number ([c] ++ cs)) := by
    rw [start_digit first]
    exact extendAll_digits [c] cs others
  rw [digits]
  exact lex_token_append token rfl h

theorem lex_minus {cs : Text} (h : cs.head? ≠ some '-') :
    lex ('-' :: cs) = .symbol '-' :: lex cs := by
  have ends : sqlScanner.Ends .dash cs := by
    intro c hc
    have other : c ≠ '-' := fun e => h (by rw [← e]; exact hc)
    exact if_neg other
  change sqlScanner.scan ('-' :: cs) = _
  rw [Scanner.scan_cons]
  exact Scanner.scanFrom_ends ends

theorem lex_signedDecimal_append (n : ℤ) {rest : Text} (h : ∀ c ∈ rest.head?, sticky c = false) :
    lex (signedDecimal n ++ rest) = lex (signedDecimal n) ++ lex rest := by
  cases n with
  | ofNat n => exact lex_decimal_append n h
  | negSucc n =>
    obtain ⟨c, cs, digits, first⟩ := decimal_cases (n + 1)
    have other : c ≠ '-' := by
      rintro rfl
      exact absurd first (by decide)
    have split := lex_decimal_append (n + 1) h
    rw [digits] at split
    rw [signedDecimal, digits, List.cons_append, lex_minus (by simp [other]),
      lex_minus (by simp [other]), split]
    rfl

theorem extendAll_stringLiteral (s : Text) :
    sqlScanner.extendAll (start '\'') (quoted s ++ ['\'']) = some (.stringQuote s) := by
  rw [show start '\'' = .string [] by decide, Scanner.extendAll_append, extendAll_quoted]
  rfl

theorem lex_stringLiteral_append (s : Text) {rest : Text}
    (h : ∀ c ∈ rest.head?, sticky c = false) :
    lex (stringLiteral s ++ rest) = lex (stringLiteral s) ++ lex rest :=
  lex_token_append (extendAll_stringLiteral s) rfl h

theorem lex_literal_append (value : BoundValue) {rest : Text}
    (h : ∀ c ∈ rest.head?, sticky c = false) :
    lex (value.literal ++ rest) = lex value.literal ++ lex rest := by
  cases value with
  | text s => exact lex_stringLiteral_append s h
  | null =>
    have token : sqlScanner.extendAll (start 'N') "ULL".toList = some (.word "NULL".toList) := by
      decide
    exact lex_token_append token rfl h
  | boolean b =>
    cases b with
    | true =>
      have token : sqlScanner.extendAll (start 't') "rue".toList = some (.word "true".toList) := by
        decide
      exact lex_token_append token rfl h
    | false =>
      have token : sqlScanner.extendAll (start 'f') "alse".toList = some (.word "false".toList) := by
        decide
      exact lex_token_append token rfl h
  | _ => exact lex_signedDecimal_append _ h

theorem signedDecimal_head (n : ℤ) :
    ∃ c cs, signedDecimal n = c :: cs ∧ c ≠ '*' ∧ (c = '-' ↔ n < 0) := by
  cases n with
  | ofNat n =>
    obtain ⟨c, cs, digits, first⟩ := decimal_cases n
    refine ⟨c, cs, digits, ?_, ?_⟩
    · rintro rfl
      exact absurd first (by decide)
    · refine iff_of_false ?_ (by simp)
      rintro rfl
      exact absurd first (by decide)
  | negSucc n => exact ⟨'-', _, rfl, by decide, iff_of_true rfl (Int.negSucc_lt_zero n)⟩

theorem literal_head (value : BoundValue) :
    ∃ c cs, value.literal = c :: cs ∧ c ≠ '*' ∧ (c = '-' ↔ negative value = true) := by
  cases value with
  | text s => exact ⟨'\'', _, rfl, by decide, iff_of_false (by decide) Bool.false_ne_true⟩
  | null => exact ⟨'N', _, rfl, by decide, by decide⟩
  | boolean b =>
    cases b with
    | true => exact ⟨'t', _, rfl, by decide, by decide⟩
    | false => exact ⟨'f', _, rfl, by decide, by decide⟩
  | _ => simpa [BoundValue.literal, negative] using signedDecimal_head _

end Literals

section Runs

theorem sticky_of_start {c : Char} (h : touching (start c) = true) : sticky c = true := by
  unfold start at h
  split_ifs at h with space digit letter quote double dash slash placeholder
  all_goals simp_all [touching, sticky, isIdentifierChar]

theorem sticky_of_extend {m m' : Mode} {c : Char} (extended : extend m c = some m')
    (h : touching m' = true) : sticky c = true := by
  cases m <;> simp only [extend] at extended <;> try split_ifs at extended
  all_goals cases extended
  all_goals simp_all [touching, sticky, isIdentifierChar]

theorem extend_literal_head {m : Mode} {c : Char} (placeholder : extend m '?' = none)
    (apart : touching m = false) (notStar : c ≠ '*') (noComment : m = .dash → c ≠ '-') :
    extend m c = none := by
  cases m with
  | dash => exact if_neg (noComment rfl)
  | slash => exact if_neg notStar
  | idle => rfl
  | symbol c => rfl
  | placeholder => rfl
  | blockClosed body => rfl
  | word name => cases apart
  | number digits => cases apart
  | stringQuote value => cases apart
  | identifierQuote name => cases apart
  | _ => simp [extend] at placeholder

theorem extend_minus {m m' : Mode} (extended : extend m '-' = some m') :
    extend m' '?' ≠ none := by
  -- a minus that belongs to an earlier token is in a comment, a string or a quoted identifier,
  -- where no placeholder follows
  intro placeholder
  cases m <;> simp [extend, isIdentifierChar, isIdentifierStart] at extended
  all_goals
    obtain ⟨-, rfl⟩ | rfl := extended
    simp [extend] at placeholder

theorem lexFrom_lineComment (body cs : Text) :
    ∃ body' tokens, lexFrom (.lineComment body) cs = .lineComment body' :: tokens := by
  induction cs generalizing body with
  | nil => exact ⟨body, [], rfl⟩
  | cons c cs ih =>
    by_cases newline : c = '\n'
    · have ended : extend (.lineComment body) c = none := if_pos newline
      exact ⟨body, _, lexFrom_none ended cs⟩
    · have extended : extend (.lineComment body) c = some (.lineComment (body ++ [c])) :=
        if_neg newline
      rw [lexFrom_some extended]
      exact ih (body ++ [c])

theorem extend_ne_dash {m m' : Mode} {c : Char} (extended : extend m c = some m') :
    m' ≠ .dash := by
  rintro rfl
  cases m <;> simp only [extend] at extended <;> try split_ifs at extended
  all_goals cases extended

theorem start_eq_dash_iff (c : Char) : start c = .dash ↔ c = '-' := by
  constructor
  · intro h
    unfold start at h
    split_ifs at h
    assumption
  · rintro rfl
    decide

end Runs

section Preservation

/-- A placeholder put into the template, seen from the mode the scanner is in: a minus
just read, or one later in the template. -/
def clash (m : Mode) (cs : Text) (values : List BoundValue) : Prop :=
  (m = .dash ∧ cs.head? = some '?' ∧ values.head?.any negative = true) ∨
    negativeAfterMinus cs values = true

/-- What the run of the scanner keeps: every `?` to come is a placeholder, and no literal
touches a token that could take it up. -/
structure Clean (m : Mode) (cs : Text) : Prop where
  mode : m ≠ .placeholder
  placeholders : (lexFrom m cs).count .placeholder = cs.count '?'
  separated : separated cs = true
  apart : touching m = true → cs.head? ≠ some '?'

theorem separated_cons {c : Char} {cs : Text} (h : separated (c :: cs) = true) :
    separated cs = true ∧ (cs.head? = some '?' → sticky c = false) ∧
      (c = '?' → ∀ d ∈ cs.head?, sticky d = false) := by
  cases cs with
  | nil => simp [separated]
  | cons d cs =>
    simp only [separated, Bool.and_eq_true, Bool.not_eq_true', Bool.and_eq_false_iff,
      beq_eq_false_iff_ne] at h
    obtain ⟨⟨behind, before⟩, rest⟩ := h
    refine ⟨rest, fun e => ?_, fun e x hx => ?_⟩
    · obtain rfl : d = '?' := by simpa using e
      exact before.resolve_left fun h => h rfl
    · obtain rfl : d = x := by simpa using hx
      exact behind.resolve_left fun h => h e

theorem Clean.extended {m m' : Mode} {c : Char} {cs : Text} (clean : Clean m (c :: cs))
    (extended : extend m c = some m') : c ≠ '?' ∧ Clean m' cs := by
  have mode := extend_ne_placeholder extended
  have bound := count_lexFrom_le mode cs
  have total := clean.placeholders
  rw [lexFrom_some extended] at total
  obtain ⟨rest, behind, -⟩ := separated_cons clean.separated
  have other : c ≠ '?' := by
    rintro rfl
    rw [List.count_cons_self] at total
    omega
  refine ⟨other, mode, ?_, rest, fun touches next => ?_⟩
  · rwa [List.count_cons_of_ne other] at total
  · exact absurd (sticky_of_extend extended touches) (by simp [behind next])

theorem Clean.started {m : Mode} {c : Char} {cs : Text} (clean : Clean m (c :: cs))
    (ended : extend m c = none) (other : c ≠ '?') : Clean (start c) cs := by
  have total := clean.placeholders
  rw [lexFrom_none ended, List.count_append, count_finish clean.mode, Nat.zero_add,
    List.count_cons_of_ne other] at total
  obtain ⟨rest, behind, -⟩ := separated_cons clean.separated
  refine ⟨fun e => other ((start_eq_placeholder_iff c).mp e), total, rest, fun touches next => ?_⟩
  exact absurd (sticky_of_start touches) (by simp [behind next])

theorem Clean.placeholder {m : Mode} {cs : Text} (clean : Clean m ('?' :: cs)) :
    extend m '?' = none ∧ touching m = false ∧ (∀ c ∈ cs.head?, sticky c = false) ∧
      Clean .idle cs := by
  have ended : extend m '?' = none := by
    cases h : extend m '?' with
    | none => rfl
    | some m' => exact absurd rfl (clean.extended h).1
  have total := clean.placeholders
  rw [lexFrom_question ended, List.count_append, count_finish clean.mode, List.count_cons_self,
    List.count_cons_self] at total
  obtain ⟨rest, -, before⟩ := separated_cons clean.separated
  refine ⟨ended, ?_, before rfl, by decide, ?_, rest, fun touches => by cases touches⟩
  · exact Bool.eq_false_iff.mpr fun touches => clean.apart touches rfl
  · change (lex cs).count .placeholder = _
    omega

theorem head_fill {cs : Text} (h : ∀ c ∈ cs.head?, sticky c = false) (literals : List Text) :
    ∀ c ∈ (fill cs literals).head?, sticky c = false := by
  cases cs with
  | nil => simp [fill]
  | cons d cs =>
    have other : d ≠ '?' := by
      rintro rfl
      exact absurd (h '?' rfl) (by decide)
    intro c hc
    have same : d = c := by simpa [fill, other] using hc
    exact h c (by simp [same])

theorem clash_nil (m : Mode) (values : List BoundValue) : ¬ clash m [] values := by
  simp [clash, negativeAfterMinus]

theorem clash_question (m : Mode) (cs : Text) (value : BoundValue) (values : List BoundValue) :
    clash m ('?' :: cs) (value :: values) ↔
      (m = .dash ∧ negative value = true) ∨ clash .idle cs values := by
  simp [clash, negativeAfterMinus]

theorem clash_cons {m m' : Mode} {c : Char} {cs : Text} (other : c ≠ '?')
    (minus : cs.head? = some '?' → (m' = .dash ↔ c = '-')) (values : List BoundValue) :
    clash m (c :: cs) values ↔ clash m' cs values := by
  -- another character takes its mode along: a minus before a placeholder is the token being read,
  -- so the clash ahead is the same
  simp only [clash, negativeAfterMinus, List.head?_cons, Option.some.injEq, other, false_and,
    and_false, false_or, if_false, Bool.or_eq_true, Bool.and_eq_true, beq_iff_eq]
  refine or_congr_left ?_
  constructor
  · rintro ⟨⟨dash, next⟩, found⟩
    exact ⟨(minus next).mpr dash, next, found⟩
  · rintro ⟨dash, next, found⟩
    exact ⟨⟨(minus next).mp dash, next⟩, found⟩

theorem lex_fill_iff {m : Mode} {cs : Text} {values : List BoundValue} (clean : Clean m cs)
    (bound : values.length = cs.count '?') :
    lexFrom m (fill cs (values.map BoundValue.literal)) =
        replacePlaceholders (lexFrom m cs) ((values.map BoundValue.literal).map lex) ↔
      ¬ clash m cs values := by
  induction cs generalizing m values with
  | nil =>
    have kept := replacePlaceholders_append (count_finish clean.mode) []
      ((values.map BoundValue.literal).map lex)
    refine iff_of_true ?_ (clash_nil m values)
    rw [fill, lexFrom_nil]
    simpa [replacePlaceholders] using kept.symm
  | cons c cs ih =>
    by_cases question : c = '?'
    · subst question
      obtain ⟨ended, apart, before, rest⟩ := clean.placeholder
      cases values with
      | nil => simp at bound
      | cons value values =>
        obtain ⟨d, ds, head, notStar, minus⟩ := literal_head value
        have tail := @ih .idle values rest (by simpa using bound)
        rw [lexFrom_question ended, replacePlaceholders_append (count_finish clean.mode),
          clash_question]
        simp only [fill, if_true, List.map_cons, List.head?_cons, Option.getD_some, List.tail_cons,
          replacePlaceholders]
        by_cases comment : m = .dash ∧ negative value = true
        · refine iff_of_false ?_ fun h => h (.inl comment)
          obtain ⟨rfl, isNegative⟩ := comment
          have dash : d = '-' := minus.mpr isNegative
          obtain ⟨body, tokens, opened⟩ :=
            lexFrom_lineComment [] (ds ++ fill cs (values.map BoundValue.literal))
          have swallowed : extend .dash '-' = some (.lineComment []) := rfl
          rw [head, dash, List.cons_append, lexFrom_some swallowed, opened]
          intro h
          cases (List.cons.inj h).1
        · have apartHead : extend m d = none := extend_literal_head ended apart notStar
            fun isDash isMinus => comment ⟨isDash, minus.mp isMinus⟩
          have split := lex_literal_append value (head_fill before (values.map BoundValue.literal))
          have cut : lexFrom m (value.literal ++ fill cs (values.map BoundValue.literal)) =
              finish m ++ lex (value.literal ++ fill cs (values.map BoundValue.literal)) := by
            rw [head]
            exact Scanner.scanFrom_ends (Scanner.ends_cons.mpr apartHead)
          rw [cut, split, List.append_cancel_left_eq, List.append_cancel_left_eq]
          simp only [comment, false_or]
          exact tail
    · have step : fill (c :: cs) (values.map BoundValue.literal) =
          c :: fill cs (values.map BoundValue.literal) := by simp [fill, question]
      have rest : values.length = cs.count '?' := by
        rwa [List.count_cons_of_ne question] at bound
      rw [step]
      cases extended : extend m c with
      | some m' =>
        have next := (clean.extended extended).2
        rw [lexFrom_some extended, lexFrom_some extended, ih next rest,
          clash_cons question fun isNext => ?_]
        refine iff_of_false (extend_ne_dash extended) ?_
        rintro rfl
        obtain ⟨cs', rfl⟩ := List.head?_eq_some_iff.mp isNext
        exact extend_minus extended next.placeholder.1
      | none =>
        have next := clean.started extended question
        rw [lexFrom_none extended, lexFrom_none extended,
          replacePlaceholders_append (count_finish clean.mode), List.append_cancel_left_eq,
          ih next rest, clash_cons question fun _ => start_eq_dash_iff c]

/-- Substitution keeps the tokens of the template exactly when no placeholder behind a
minus is bound to a negative number. -/
theorem substituteInto_tokens_iff (sql : Text) (values : List BoundValue)
    (placeholders : AllPlaceholders sql) (apart : separated sql = true)
    (bound : values.length = (lex sql).count .placeholder) :
    ∃ arguments text, bindAll values = .ok arguments ∧ arguments.substituteInto sql = .ok text ∧
      (lex text = replacePlaceholders (lex sql) (arguments.literals.map lex) ↔
        negativeAfterMinus sql values = false) := by
  have counted : values.length = sql.count '?' := bound.trans placeholders
  have clean : Clean .idle sql := ⟨by decide, placeholders, apart, fun touches => by cases touches⟩
  refine ⟨⟨values.map BoundValue.literal⟩, fill sql (values.map BoundValue.literal),
    bindAll_eq values, substituteInto_of_count (by simpa using counted.symm), ?_⟩
  refine (lex_fill_iff clean counted).trans ?_
  simp [clash]

def template : Text := "SELECT a-?, b FROM t".toList

theorem substituteInto_tokens_template :
    ∃ arguments text, bindAll [.int 1] = .ok arguments ∧
      arguments.substituteInto template = .ok text ∧
      (lex text = replacePlaceholders (lex template) (arguments.literals.map lex) ↔
        negativeAfterMinus template [.int 1] = false) :=
  substituteInto_tokens_iff template [.int 1] (by unfold AllPlaceholders; decide +kernel)
    (by decide +kernel) (by decide +kernel)

theorem minus_literal_opens_comment :
    AllPlaceholders template ∧ separated template = true ∧
      bindAll [.int (-1)] = .ok ⟨["-1".toList]⟩ ∧
      MonetArguments.substituteInto ⟨["-1".toList]⟩ template =
        .ok "SELECT a--1, b FROM t".toList ∧
      lex "SELECT a--1, b FROM t".toList =
        [.word "SELECT".toList, .word ['a'], .lineComment "1, b FROM t".toList] ∧
      lex "SELECT a--1, b FROM t".toList ≠
        replacePlaceholders (lex template) [lex "-1".toList] := by
  unfold AllPlaceholders
  decide +kernel

end Preservation

end SqlxMonetdb.Substitution
