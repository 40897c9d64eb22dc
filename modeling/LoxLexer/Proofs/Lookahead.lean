-- SUMMARY: How far a part looks ahead, and what may follow it instead: less of the same text, more of it, or blanks.
import LoxLexer.Proofs.Division

/-!
# How far a part looks ahead

Where a part may end depends on the next character, and for a whole number in front of a point on
the character behind the point too. So what follows a part can change, as long as blanks are all
that comes into its sight. A text that is cut off is never seen, and a text that is added is seen
only from the end.
-/

namespace LoxLexer

def IsBlank (c : Char) : Prop := ∃ b : Blank, c = b.char

theorem IsBlank.not_wordPart {c : Char} (blank : IsBlank c) : isWordPart c = false := by
  obtain ⟨b, rfl⟩ := blank
  exact Bool.eq_false_iff.mpr fun part => b.not_wordPart ((isWordPart_iff _).mp part)

theorem IsBlank.not_digit {c : Char} (blank : IsBlank c) : isDigit c = false := by
  obtain ⟨b, rfl⟩ := blank
  exact Bool.eq_false_iff.mpr fun digit => b.not_wordPart (.inr ((isDigit_iff _).mp digit))

theorem IsBlank.ne {c : Char} (blank : IsBlank c) : c ≠ '=' ∧ c ≠ '/' ∧ c ≠ '.' := by
  obtain ⟨b, rfl⟩ := blank
  cases b <;> decide

section Seen

variable {a b : List Char}

theorem Mark.Ends.of_seen {m : Mark} (ends : m.Ends a)
    (first : ∀ c ∈ b.head?, c ∈ a.head? ∨ IsBlank c) : m.Ends b := by
  have kept {c : Char} (visible : ¬ IsBlank c) (absent : a.head? ≠ some c) : b.head? ≠ some c := by
    intro head
    rcases first c head with same | blank
    · exact absent same
    · exact visible blank
  have equal : ¬ IsBlank '=' := fun blank => blank.ne.1 rfl
  have slash : ¬ IsBlank '/' := fun blank => blank.ne.2.1 rfl
  cases m with
  | bang | equal | less | greater => exact kept equal ends
  | slash => exact kept slash ends
  | _ => trivial

/-- A lexeme that may end in front of a text may end in front of any other, if what it can see there
are characters of the first text or blanks. -/
theorem Lexeme.Ends.of_seen {l : Lexeme} (ends : l.Ends a)
    (first : ∀ c ∈ b.head?, c ∈ a.head? ∨ IsBlank c)
    (second : ∀ d, l = .whole d → ∀ c tail, b = '.' :: c :: tail →
      (∃ more, a = '.' :: c :: more) ∨ IsBlank c) : l.Ends b := by
  have kept {p : Char → Bool} (head : ∀ c ∈ a.head?, p c = false)
      (blank : ∀ c, IsBlank c → p c = false) : ∀ c ∈ b.head?, p c = false := by
    intro c member
    rcases first c member with same | isBlank
    · exact head c same
    · exact blank c isBlank
  cases l with
  | mark m => exact Mark.Ends.of_seen ends first
  | word w => exact kept ends fun _ => IsBlank.not_wordPart
  | whole d =>
      refine ⟨kept ends.1 fun _ => IsBlank.not_digit, ?_⟩
      intro c tail split
      rcases second d rfl c tail split with ⟨more, same⟩ | blank
      · exact ends.2 c more same
      · exact blank.not_digit
  | decimal d f => exact kept ends fun _ => IsBlank.not_digit
  | quoted body => trivial

end Seen

/-! ## Less text -/

section Less

variable {rest more : List Char}

theorem mem_head_append {c : Char} (head : c ∈ rest.head?) : c ∈ (rest ++ more).head? := by
  cases rest with
  | nil => cases head
  | cons d rest => exact head

/-- A part that may end in front of a text may end in front of any beginning of it. -/
theorem Part.Ends.of_append {p : Part} (ends : p.Ends (rest ++ more)) : p.Ends rest := by
  cases p with
  | lexeme l =>
      refine Lexeme.Ends.of_seen ends (fun c head => .inl (mem_head_append head)) ?_
      intro d _ c tail split
      exact .inl ⟨tail ++ more, by rw [split]; rfl⟩
  | trivia t =>
      cases t with
      | blank b => trivial
      | comment body => exact fun c head => ends c (mem_head_append head)
  | stray c => exact ends
  | unclosed body => exact ⟨ends.1, (List.append_eq_nil_iff.mp ends.2).1⟩

theorem Divided.left {a b : List Part} (h : Divided (a ++ b)) : Divided a := by
  induction a with
  | nil => trivial
  | cons p a ih =>
      obtain ⟨ends, h⟩ := h
      change p.Ends (Part.texts (a ++ b)) at ends
      rw [Part.texts_append] at ends
      exact ⟨ends.of_append, ih h⟩

end Less

/-! ## More text -/

/-- Whether a part stands so far from the end of a text, with so much behind it, that it cannot see
what is added there. A stray character does not look ahead. -/
def Part.IsFar : Part → List Char → Prop
  | lexeme (.whole _), rest => rest ≠ [] ∧ rest ≠ ['.']
  | stray _, _ => True
  | lexeme _, rest | trivia _, rest | unclosed _, rest => rest ≠ []

instance (p : Part) (rest : List Char) : Decidable (p.IsFar rest) := by
  unfold Part.IsFar
  split <;> infer_instance

/-- A part that is far from the end may end where it does whatever is added. -/
theorem Part.Ends.append {p : Part} {rest : List Char} (ends : p.Ends rest) (far : p.IsFar rest)
    (more : List Char) : p.Ends (rest ++ more) := by
  have head (some : rest ≠ []) : (rest ++ more).head? = rest.head? := by
    obtain ⟨c, tail, rfl⟩ := List.exists_cons_of_ne_nil some
    rfl
  cases p with
  | lexeme l =>
      have some : rest ≠ [] := by
        cases l with
        | whole d => exact far.1
        | _ => exact far
      refine Lexeme.Ends.of_seen ends (fun c member => .inl (head some ▸ member)) ?_
      rintro d rfl c tail split
      -- Something stands behind the point, so the second character is one of the text.
      match rest, far, split with
      | [_], far, split =>
          cases split
          exact absurd rfl far.2
      | _ :: _ :: rest, far, split =>
          cases split
          exact .inl ⟨rest, rfl⟩
  | trivia t =>
      cases t with
      | blank b => trivial
      | comment body => exact fun c member => ends c (head far ▸ member)
  | stray c => exact ends
  | unclosed body => exact absurd ends.2 far

end LoxLexer
