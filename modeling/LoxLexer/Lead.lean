-- SUMMARY: What the first character of a piece of source commits the scan to, and the longest-match rule for operators.
import LoxLexer.Kind

/-!
# Leading characters

The first character of a piece of source decides what the piece can be. All
classes are classes of ASCII characters; every other character is a stray one.
-/

namespace LoxLexer

/-! ## Character classes -/

/-- The digits `0` to `9`. -/
def isDigit (c : Char) : Bool := c.isDigit

/-- The characters that begin a word. -/
def isWordStart (c : Char) : Bool := c.isAlpha || c == '_'

/-- The characters that continue a word. -/
def isWordPart (c : Char) : Bool := c.isAlphanum || c == '_'

/-- The marks that are one character and the beginning of no other mark. -/
def Mark.single? : Char → Option Mark
  | '(' => some .leftParen
  | ')' => some .rightParen
  | '{' => some .leftBrace
  | '}' => some .rightBrace
  | ',' => some .comma
  | '.' => some .dot
  | '-' => some .minus
  | '+' => some .plus
  | ';' => some .semicolon
  | '*' => some .star
  | _ => none

/-- The marks that a character begins which may absorb a following `=`: the short
one and the long one. -/
def Mark.operator? : Char → Option (Mark × Mark)
  | '!' => some (.bang, .bangEqual)
  | '=' => some (.equal, .equalEqual)
  | '<' => some (.less, .lessEqual)
  | '>' => some (.greater, .greaterEqual)
  | _ => none

theorem Mark.spelling_of_single? {c : Char} {m : Mark} (h : single? c = some m) :
    m.spelling = [c] := by
  unfold single? at h
  split at h <;> cases h <;> rfl

theorem Mark.spelling_of_operator? {c : Char} {short long : Mark}
    (h : operator? c = some (short, long)) :
    short.spelling = [c] ∧ long.spelling = [c, '='] := by
  unfold operator? at h
  split at h <;> cases h <;> exact ⟨rfl, rfl⟩

/-- The longest match: the long form wins whenever `=` follows. -/
def munch {α : Type} (short long : α) (next : Option Char) : α :=
  if next = some '=' then long else short

/-! ## Leads -/

/-- What a first character commits the scan to. -/
inductive Lead where
  /-- A mark of one character. -/
  | single (m : Mark)
  /-- A mark of one character, or of two if `=` follows. -/
  | operator (short long : Mark)
  /-- A line comment if doubled, otherwise a mark. -/
  | slash
  /-- Space, tab or carriage return. -/
  | blank
  | newline
  /-- A string. -/
  | quote
  /-- A number. -/
  | digit
  /-- A word. -/
  | wordStart
  /-- No token begins so. -/
  | stray
  deriving DecidableEq, Repr

/-- The class of a first character. -/
def Lead.of (c : Char) : Lead :=
  match Mark.single? c with
  | some m => .single m
  | none =>
    match Mark.operator? c with
    | some (short, long) => .operator short long
    | none =>
      if c = '/' then .slash
      else if c = ' ' ∨ c = '\t' ∨ c = '\r' then .blank
      else if c = '\n' then .newline
      else if c = '"' then .quote
      else if isDigit c then .digit
      else if isWordStart c then .wordStart
      else .stray

end LoxLexer
