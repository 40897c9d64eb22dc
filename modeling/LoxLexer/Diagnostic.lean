-- SUMMARY: Diagnostics, their one-line form, and the reporters that receive them one at a time.

/-!
# Diagnostics and reporters

A diagnostic is a message with a line number and a place on the line, which may be
empty. A reporter is a step function: it receives diagnostics one at a time and
folds them into a state of its own choosing.
-/

namespace LoxLexer

/-- A message about the source. -/
structure Diagnostic where
  line : Nat
  location : String
  message : String
  deriving DecidableEq, Repr

/-- The one-line form of a diagnostic. -/
def Diagnostic.text (d : Diagnostic) : String :=
  "[line " ++ toString d.line ++ "] Error " ++ d.location ++ ": " ++ d.message

/-! ## Reporters -/

/-- Receives diagnostics and folds them into a state. -/
structure Reporter (σ : Type) where
  report : σ → Diagnostic → σ

namespace Reporter

/-- Drops every diagnostic. -/
def silent : Reporter Unit := ⟨fun _ _ => ()⟩

/-- Keeps every diagnostic as it was received. -/
def recording : Reporter (Array Diagnostic) := ⟨Array.push⟩

/-- Keeps the one-line form of every diagnostic. -/
def collecting : Reporter (Array String) := ⟨fun lines d => lines.push d.text⟩

end Reporter

end LoxLexer
