import SqlxMonetdb.Scanning
import SqlxMonetdb.TextPrimitives

set_option autoImplicit false

namespace SqlxMonetdb.SqlTokens
open TextPrimitives Scanning

section Tokens

inductive Token where
  | word (name : Text)
  | number (digits : Text)
  | string (value : Text)
  | identifier (name : Text)
  | lineComment (body : Text)
  | blockComment (body : Text)
  | placeholder
  | symbol (c : Char)
  | unterminated (read : Text)
  deriving DecidableEq

/-- The token being read. -/
inductive Mode where
  | idle
  | word (name : Text)
  | number (digits : Text)
  | dash
  | slash
  | symbol (c : Char)
  | placeholder
  | lineComment (body : Text)
  | blockComment (body : Text)
  /-- In a block comment, behind a `*`. -/
  | blockStar (body : Text)
  | blockClosed (body : Text)
  | string (value : Text)
  /-- Behind a quote that closes the string unless a second one follows. -/
  | stringQuote (value : Text)
  | identifier (name : Text)
  | identifierQuote (name : Text)
  deriving DecidableEq

def isIdentifierStart (c : Char) : Bool :=
  c.isAlpha || c == '_' || (128 ≤ c.toNat && !isWhitespace c)

def isIdentifierChar (c : Char) : Bool := isIdentifierStart c || c.isDigit

def start (c : Char) : Mode :=
  if isWhitespace c then .idle
  else if c.isDigit then .number [c]
  else if isIdentifierStart c then .word [c]
  else if c = '\'' then .string []
  else if c = '"' then .identifier []
  else if c = '-' then .dash
  else if c = '/' then .slash
  else if c = '?' then .placeholder
  else .symbol c

def extend : Mode → Char → Option Mode
  | .idle, _ => none
  | .word name, c => if isIdentifierChar c then some (.word (name ++ [c])) else none
  | .number digits, c => if c.isDigit then some (.number (digits ++ [c])) else none
  | .dash, c => if c = '-' then some (.lineComment []) else none
  | .slash, c => if c = '*' then some (.blockComment []) else none
  | .symbol _, _ => none
  | .placeholder, _ => none
  | .lineComment body, c => if c = '\n' then none else some (.lineComment (body ++ [c]))
  | .blockComment body, c =>
    if c = '*' then some (.blockStar body) else some (.blockComment (body ++ [c]))
  | .blockStar body, c =>
    if c = '/' then some (.blockClosed body)
    else if c = '*' then some (.blockStar (body ++ ['*']))
    else some (.blockComment (body ++ ['*', c]))
  | .blockClosed _, _ => none
  | .string value, c =>
    if c = '\'' then some (.stringQuote value) else some (.string (value ++ [c]))
  | .stringQuote value, c => if c = '\'' then some (.string (value ++ ['\''])) else none
  | .identifier name, c =>
    if c = '"' then some (.identifierQuote name) else some (.identifier (name ++ [c]))
  | .identifierQuote name, c => if c = '"' then some (.identifier (name ++ ['"'])) else none

def finish : Mode → List Token
  | .idle => []
  | .word name => [.word name]
  | .number digits => [.number digits]
  | .dash => [.symbol '-']
  | .slash => [.symbol '/']
  | .symbol c => [.symbol c]
  | .placeholder => [.placeholder]
  | .lineComment body => [.lineComment body]
  | .blockComment body => [.unterminated body]
  | .blockStar body => [.unterminated (body ++ ['*'])]
  | .blockClosed body => [.blockComment body]
  | .string value => [.unterminated value]
  | .stringQuote value => [.string value]
  | .identifier name => [.unterminated name]
  | .identifierQuote name => [.identifier name]

def sqlScanner : Scanner Char Mode Token where
  idle := .idle
  start := start
  extend := extend
  finish := finish
  idle_extend _ := rfl
  idle_finish := rfl

abbrev lexFrom (m : Mode) (cs : Text) : List Token := sqlScanner.scanFrom m cs

def lex (sql : Text) : List Token := sqlScanner.scan sql

end Tokens

section Placeholders

theorem extend_ne_placeholder {m m' : Mode} {c : Char} (h : extend m c = some m') :
    m' ≠ .placeholder := by
  rintro rfl
  cases m <;> simp only [extend] at h <;> try split_ifs at h
  all_goals simp_all

theorem start_eq_placeholder_iff (c : Char) : start c = .placeholder ↔ c = '?' := by
  constructor
  · intro h
    unfold start at h
    split_ifs at h
    assumption
  · rintro rfl
    decide

theorem count_finish {m : Mode} (h : m ≠ .placeholder) : (finish m).count .placeholder = 0 := by
  cases m <;> simp_all [finish]

@[simp] theorem lexFrom_nil (m : Mode) : lexFrom m [] = finish m := rfl

theorem lexFrom_some {m m' : Mode} {c : Char} (h : extend m c = some m') (cs : Text) :
    lexFrom m (c :: cs) = lexFrom m' cs := Scanner.scanFrom_cons_some h

theorem lexFrom_none {m : Mode} {c : Char} (h : extend m c = none) (cs : Text) :
    lexFrom m (c :: cs) = finish m ++ lexFrom (start c) cs := Scanner.scanFrom_cons_none h

theorem lexFrom_placeholder (cs : Text) : lexFrom .placeholder cs = .placeholder :: lex cs :=
  Scanner.scanFrom_ends fun _ _ => rfl

theorem lexFrom_question {m : Mode} (h : extend m '?' = none) (cs : Text) :
    lexFrom m ('?' :: cs) = finish m ++ .placeholder :: lex cs := by
  rw [lexFrom_none h, (start_eq_placeholder_iff '?').mpr rfl, lexFrom_placeholder]

/-- Only a `?` begins a placeholder. -/
theorem count_lexFrom_le {m : Mode} (h : m ≠ .placeholder) (cs : Text) :
    (lexFrom m cs).count .placeholder ≤ cs.count '?' := by
  induction cs generalizing m with
  | nil =>
    change (finish m).count .placeholder ≤ _
    rw [count_finish h]
    exact Nat.zero_le _
  | cons c cs ih =>
    cases extended : extend m c with
    | some m' =>
      rw [lexFrom_some extended]
      have inside := ih (extend_ne_placeholder extended)
      have grows := List.count_le_count_cons (a := '?') (b := c) (l := cs)
      omega
    | none =>
      have before := count_finish h
      by_cases placeholder : c = '?'
      · subst placeholder
        have rest := ih (m := .idle) (by decide)
        change (lex cs).count .placeholder ≤ _ at rest
        rw [lexFrom_question extended, List.count_append, List.count_cons_self,
          List.count_cons_self]
        omega
      · have rest := ih fun e => placeholder ((start_eq_placeholder_iff c).mp e)
        have grows := List.count_le_count_cons (a := '?') (b := c) (l := cs)
        rw [lexFrom_none extended, List.count_append]
        omega

end Placeholders

end SqlxMonetdb.SqlTokens
