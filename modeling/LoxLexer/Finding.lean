-- SUMMARY: What a piece of source means at a place: a token, a fault, or nothing.
import LoxLexer.Piece
import LoxLexer.Token
import LoxLexer.Fault
import LoxLexer.Number.Numeral

/-!
# Findings

A piece and the position at which it begins determine a token, a fault or, for
blanks, line breaks and comments, nothing. Spans are those of the piece; lines are
counted where the piece ends, so a string over several lines is on its last one.
-/

namespace LoxLexer

/-! ## Meanings -/

/-- What a piece of source means, wherever it is. -/
inductive Meaning where
  | token (kind : Kind) (literal : Option Literal)
  | fault (cause : Cause)
  /-- Blanks, line breaks and comments mean nothing. -/
  | nothing
  deriving DecidableEq, Repr

/-- The meaning of a piece. The value of a string is the text between its quotes,
that of a number the nearest one to its numeral. -/
def Piece.meaning (p : Piece) : Meaning :=
  match p.shape with
  | .mark m => .token (.mark m) none
  | .word => .token (Kind.ofWord (String.ofList p.text)) none
  | .number => .token .number (some (.number (Numeral.ofText p.text).toBinary64))
  | .quoted => .token .string (some (.string (String.ofList p.text.tail.dropLast)))
  | .comment | .blank | .newline => .nothing
  | .stray c => .fault (.stray c)
  | .unclosed => .fault .unclosed

/-! ## Findings -/

/-- What a scan finds in a source. -/
inductive Finding where
  | token (t : Token)
  | fault (f : Fault)
  deriving DecidableEq, Repr

/-- What is found if a piece begins at a position. -/
def Piece.finding? (p : Piece) (start : Position) : Option Finding :=
  let line := (start.after p.text).line
  let span := start.span p.text
  match p.meaning with
  | .token kind literal => some (.token ⟨kind, String.ofList p.text, literal, line, span⟩)
  | .fault cause => some (.fault { cause, line, span })
  | .nothing => none

end LoxLexer
