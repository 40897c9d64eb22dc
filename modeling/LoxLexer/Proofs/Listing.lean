-- SUMMARY: Listings of scanned tokens are unambiguous: each record tells where it ends and what its token is.
import LoxLexer.Rendering
import LoxLexer.Proofs.Unparse

/-!
# Listings can be read back

A listing writes strings as they are, so one record may take many lines and some of them
may look like other records. From left to right there is no doubt all the same: the name
of the kind ends at the first space, it says whether the lexeme ends at a space or at the
second quote, and the lexeme determines the literal and with it the end of the record.
-/

namespace LoxLexer

/-! ## Entries -/

/-- The entry of a listing for a token with these contents: its record and a line break. -/
def entry (content : Kind × String × Option Literal) : List Char :=
  let (kind, lexeme, literal) := content
  Token.record ⟨kind, lexeme, literal, 0, ⟨0, 0⟩⟩ ++ ['\n']

theorem listing_eq (tokens : List Token) :
    listing tokens = (tokens.map Token.content).flatMap entry := by
  rw [List.flatMap_map]
  rfl

theorem Kind.space_not_mem_name (k : Kind) : ' ' ∉ k.name.toList := by
  cases k with
  | mark m => cases m <;> decide
  | keyword k => cases k <;> decide
  | _ => decide

section Entries

variable {rest rest' : List Char}

/-- An entry begins with the name of its kind. -/
theorem eq_of_entry_append {c d : Kind × String × Option Literal}
    (same : entry c ++ rest = entry d ++ rest') :
    c.1 = d.1 ∧ ∃ x y, c.2.1.toList ++ ' ' :: x = d.2.1.toList ++ ' ' :: y := by
  let name (k : Kind) : Without ' ' := ⟨k.name.toList, k.space_not_mem_name⟩
  simp only [entry, Token.record, List.append_assoc, List.cons_append] at same
  obtain ⟨names, others⟩ := Without.append_cons_inj (v := name c.1) (w := name d.1) same
  have spelt : c.1.name.toList = d.1.name.toList := congrArg Without.text names
  exact ⟨Kind.name_injective (String.toList_injective spelt), _, _, others⟩

/-- A lexeme of a known kind tells where it ends. -/
theorem Lexeme.eq_of_append_space {l m : Lexeme} (kind : l.kind = m.kind)
    (same : l.text ++ ' ' :: rest = m.text ++ ' ' :: rest') : l = m := by
  by_cases string : l.kind = .string
  · obtain ⟨a, rfl⟩ := kind_eq_string_iff.mp string
    obtain ⟨b, rfl⟩ := kind_eq_string_iff.mp (kind ▸ string)
    simp only [text, List.cons_append, List.append_assoc, List.nil_append, List.cons.injEq,
      true_and] at same
    exact congrArg quoted (Without.append_cons_inj same).1
  · let v : Without ' ' := ⟨l.text, l.blank_not_mem_text string .space⟩
    let w : Without ' ' := ⟨m.text, m.blank_not_mem_text (kind ▸ string) .space⟩
    obtain ⟨texts, -⟩ := Without.append_cons_inj (v := v) (w := w) same
    exact spelling_injective (congrArg (fun u : Without ' ' => String.ofList u.text) texts)

theorem Lexeme.eq_of_entry_append {l m : Lexeme}
    (same : entry l.content ++ rest = entry m.content ++ rest') : l = m ∧ rest = rest' := by
  obtain ⟨kind, x, y, texts⟩ := LoxLexer.eq_of_entry_append same
  simp only [content, spelling, String.toList_ofList] at kind texts
  obtain rfl := eq_of_append_space kind texts
  exact ⟨rfl, List.append_cancel_left same⟩

end Entries

/-! ## Listings of lexemes -/

/-- The entries of lexemes, closed by the end of input, determine the lexemes. -/
theorem lexemes_eq_of_entries {ls ms : List Lexeme}
    (same : (ls.map Lexeme.content ++ [(Kind.eof, "", none)]).flatMap entry =
      (ms.map Lexeme.content ++ [(Kind.eof, "", none)]).flatMap entry) : ls = ms := by
  induction ls generalizing ms with
  | nil =>
      cases ms with
      | nil => rfl
      | cons m ms => exact absurd (eq_of_entry_append same).1.symm m.kind_ne_eof
  | cons l ls ih =>
      cases ms with
      | nil => exact absurd (eq_of_entry_append same).1 l.kind_ne_eof
      | cons m ms =>
          obtain ⟨rfl, rest⟩ := Lexeme.eq_of_entry_append same
          rw [ih rest]

/-- Two scans have the same listing exactly if their tokens agree, one by one, in kind,
lexeme and literal. -/
theorem listing_scan_eq_iff (s t : String) :
    render .text (scan s).tokens = render .text (scan t).tokens ↔
      (scan s).tokens.map Token.content = (scan t).tokens.map Token.content := by
  obtain ⟨ls, contents_s⟩ := exists_lexemes_of_scan s
  obtain ⟨ms, contents_t⟩ := exists_lexemes_of_scan t
  rw [render, render, String.ofList_inj, listing_eq, listing_eq, contents_s, contents_t]
  constructor
  · intro same
    rw [lexemes_eq_of_entries same]
  · intro same
    rw [same]

/-- Tokens that no scan yields may share a listing: here a space belongs to a lexeme or to
a literal. -/
example :
    let a : Token := ⟨.identifier, "a b", some (.string "c"), 1, ⟨0, 3⟩⟩
    let b : Token := ⟨.identifier, "a", some (.string "b c"), 1, ⟨0, 3⟩⟩
    listing [a] = listing [b] ∧ a.content ≠ b.content := by
  decide

end LoxLexer
