-- SUMMARY: Faults of a source: their causes, where they are, and what a detailed report says about them.
import LoxLexer.Span
import LoxLexer.Diagnostic

/-!
# Faults

A fault is a piece of source that is no token: a character that begins none, or a
string that is never closed. It points into a named text, which is a placeholder
until a source is attached; attaching changes nothing else.
-/

namespace LoxLexer

/-! ## Causes -/

/-- Why a piece of source is no token. -/
inductive Cause where
  | stray (c : Char)
  | unclosed
  deriving DecidableEq, Repr

namespace Cause

def message : Cause → String
  | stray c => "Unexpected Character " ++ c.toString
  | unclosed => "Unterminated Text"

/-- The identifier of the cause in detailed reports. -/
def code : Cause → String
  | stray _ => "lox::scan::unexpected_character"
  | unclosed => "lox::scan::unterminated_string"

/-- Advice on how to mend the source. -/
def help : Cause → Option String
  | stray _ => none
  | unclosed => some "add a closing '\"' before the end of input"

/-- What is said about the faulty text itself. -/
def label : Cause → String
  | stray _ => "not the start of any token"
  | unclosed => "string is never closed"

end Cause

/-! ## Faults -/

/-- A text and the name it is known by. -/
structure NamedText where
  name : String
  text : String
  deriving DecidableEq, Repr

/-- A fault of a source, and the text that its span points into. -/
structure Fault where
  cause : Cause
  line : Nat
  span : Span
  source : NamedText := ⟨"input", ""⟩
  deriving DecidableEq, Repr

namespace Fault

def message (f : Fault) : String := f.cause.message

/-- The diagnostic of a fault. It names a line only. -/
def diagnostic (f : Fault) : Diagnostic := ⟨f.line, "", f.message⟩

/-- The labelled spans of a detailed report: one, on the faulty text. -/
def labels (f : Fault) : List (String × Span) := [(f.cause.label, f.span)]

/-- Points the fault into a text; the last text attached counts. -/
def attach (f : Fault) (source : NamedText) : Fault := { f with source }

end Fault

end LoxLexer
