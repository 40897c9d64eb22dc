-- SUMMARY: Tokens: kind, lexeme, literal value, line and span, with the equality that treats numbers as numbers.
import LoxLexer.Kind
import LoxLexer.Span
import LoxLexer.Number.Style

/-!
# Tokens

A token records what was read (`kind`, `lexeme`), the value it denotes if it is a
string or a number (`literal`), and where it was read (`line`, `span`). The line is
the one on which the token ends.
-/

namespace LoxLexer

/-! ## Literals -/

/-- The value that a string or number token denotes. -/
inductive Literal where
  | string (text : String)
  | number (value : Binary64)
  deriving DecidableEq, Repr

namespace Literal

/-- Equality of values: strings by their text, numbers as numbers. -/
def agrees : Literal → Literal → Bool
  | string s, string t => s == t
  | number x, number y => x.agrees y
  | _, _ => false

/-- A literal in a listing: a string verbatim, a number in listing style. -/
def text : Literal → List Char
  | string s => s.toList
  | number x => x.text .listing

end Literal

/-! ## Tokens -/

/-- A token of a source. -/
structure Token where
  kind : Kind
  lexeme : String
  literal : Option Literal
  line : Nat
  span : Span
  deriving DecidableEq, Repr

namespace Token

/-- The token that ends every token list: nothing is left to read. -/
def eof (p : Position) : Token where
  kind := .eof
  lexeme := ""
  literal := none
  line := p.line
  span := p.span []

/-- Equality of tokens: all fields coincide, literals by value. -/
def agrees (a b : Token) : Bool :=
  a.kind == b.kind && a.lexeme == b.lexeme && a.line == b.line && a.span == b.span &&
    match a.literal, b.literal with
    | none, none => true
    | some x, some y => x.agrees y
    | _, _ => false

end Token

end LoxLexer
