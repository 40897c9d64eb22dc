-- SUMMARY: Backspaces: a typed line with the clusters taken back that backspaces follow.
import LoxLexer.Span
import LoxLexer.Text.Cluster

/-!
# Backspaces

A backspace in a typed line takes back the cluster typed before it. How much that
removes is remembered for each cluster as a number of bytes that is held in one
byte: of a cluster of 256 bytes or more only the remainder is taken back. A line
without backspaces is what was typed. In this way rustyline edits lines that do not
come from a terminal.
-/

namespace LoxLexer

/-- The character that takes back what was typed before it. -/
def backspace : Char := '\x08'

/-- Removes a number of bytes from the end of a text that is given from its end.
Parts of characters cannot be removed. -/
def removeBytes : Nat → List Char → Option (List Char)
  | 0, text => some text
  | _, [] => none
  | n, c :: text => if n < c.utf8Size then none else removeBytes (n - c.utf8Size) text

/-- A line while it is typed. -/
structure Typed where
  /-- The text, from its end. -/
  text : List Char := []
  /-- How many bytes each backspace to come takes back. -/
  sizes : List Nat := []
  deriving DecidableEq, Repr

namespace Typed

/-- Types a cluster. A backspace without anything to take back does nothing. -/
def type (t : Typed) (cluster : List Char) : Option Typed :=
  if cluster = [backspace] then
    match t.sizes with
    | [] => some t
    | size :: sizes => (removeBytes size t.text).map fun text => ⟨text, sizes⟩
  else
    some ⟨cluster.reverse ++ t.text, byteLength cluster % 256 :: t.sizes⟩

theorem text_foldlM_type {parts : List (List Char)} (h : [backspace] ∉ parts) (t : Typed) :
    (parts.foldlM type t).map (·.text) = some (parts.flatten.reverse ++ t.text) := by
  induction parts generalizing t with
  | nil => rfl
  | cons part parts ih =>
    simp only [List.mem_cons, not_or] at h
    simpa [List.foldlM_cons, type, Ne.symm h.1] using ih h.2 _

end Typed

/-- The line that rustyline is left with when all of a text has been typed. There is
none if a backspace would remove a part of a character. -/
def applyBackspaces (line : List Char) : Option (List Char) :=
  ((clusters line).foldlM Typed.type {}).map fun t => t.text.reverse

theorem applyBackspaces_eq_self {line : List Char} (h : backspace ∉ line) :
    applyBackspaces line = some line := by
  have hparts : [backspace] ∉ clusters line := fun hmem =>
    h (flatten_clusters line ▸ List.mem_flatten.2 ⟨_, hmem, List.mem_singleton.2 rfl⟩)
  have := congrArg (Option.map List.reverse) (Typed.text_foldlM_type hparts {})
  simpa [applyBackspaces, flatten_clusters, Function.comp_def] using this

end LoxLexer
