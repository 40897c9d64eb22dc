-- SUMMARY: The decomposition of a text by longest match, its existence and uniqueness, and that a scan is this decomposition.
import LoxLexer.Proofs.Place

/-!
# Longest match

The grammar decides by longest match: at each place the longest lexeme or trivia
that begins there is taken, and where none begins, the rest of the text if a quote
stands there and a single character otherwise. `Decomposes` says this with nothing
but the texts of parts. Reading a piece looks at its first character and one or two
more; the theorem of this module is that both come to the same.
-/

namespace LoxLexer

/-! ## Decompositions -/

/-- A regular part is the longest one that begins a text. -/
def Part.IsLongest (p : Part) (text : List Char) : Prop :=
  p.IsRegular ∧ p.text <+: text ∧
    ∀ q : Part, q.IsRegular → q.text <+: text → q.text.length ≤ p.text.length

/-- No regular part begins a text. -/
def Irregular (text : List Char) : Prop := ∀ q : Part, q.IsRegular → ¬ q.text <+: text

/-- The decomposition of a text by longest match, from left to right. -/
inductive Decomposes : List Char → List Part → Prop where
  | done : Decomposes [] []
  | longest {text rest : List Char} {p : Part} {parts : List Part} :
      text = p.text ++ rest → p.IsLongest text → Decomposes rest parts → Decomposes text (p :: parts)
  | unclosed {body : List Char} : Irregular ('"' :: body) → Decomposes ('"' :: body) [.unclosed body]
  | stray {c : Char} {rest : List Char} {parts : List Part} :
      Irregular (c :: rest) → c ≠ '"' → Decomposes rest parts →
      Decomposes (c :: rest) (.stray c :: parts)

/-! ## Reading at least as much as any regular part -/

section Reading

variable {c : Char} {tail : List Char} (more : List Char)

/-- The piece is regular and at least so long. -/
def Piece.Covers (p : Piece) (length : Nat) : Prop :=
  length ≤ p.text.length ∧ p.shape ≠ .unclosed ∧ ∀ c, p.shape ≠ .stray c

theorem Mark.covers_read (m : Mark) (split : m.spelling = c :: tail) :
    (Piece.read c (tail ++ more)).1.Covers m.spelling.length := by
  cases m <;> cases split <;>
    simp [Piece.Covers, Piece.read, Lead.of, Mark.single?, Mark.operator?, Mark.spelling]
  -- Only a slash may turn out to begin something else.
  case slash.refl => split <;> simp

theorem Word.covers_read (w : Word) :
    (Piece.read w.first (w.others ++ more)).1.Covers (w.first :: w.others).length := by
  have parts : ∀ c ∈ w.others, isWordPart c = true := fun c member =>
    (isWordPart_iff c).mpr (w.parts c member)
  simp [Piece.Covers, Piece.read, Lead.of_letter w.letter, List.takeWhile_append_of_pos parts]

theorem Piece.length_le_readNumber_whole (inside : ∀ c ∈ tail, isDigit c = true) :
    tail.length ≤ (Piece.readNumber (tail ++ more)).1.length := by
  have run : tail.length ≤ ((tail ++ more).takeWhile isDigit).length := by
    simp [List.takeWhile_append_of_pos inside]
  unfold Piece.readNumber
  dsimp only
  split
  · split
    · rw [List.length_append]
      omega
    · exact run
  · exact run

theorem Piece.length_le_readNumber_decimal (inside : ∀ c ∈ tail, isDigit c = true) (f : Digits) :
    (tail ++ '.' :: f.text).length ≤
      (Piece.readNumber (tail ++ '.' :: f.text ++ more)).1.length := by
  rw [List.append_assoc, List.cons_append, Piece.readNumber_fraction inside,
    List.takeWhile_append_of_pos f.isDigit]
  simp

theorem Piece.covers_read_number (lead : IsDigit c) {length : Nat} {rest : List Char}
    (enough : length ≤ (Piece.readNumber rest).1.length) :
    (Piece.read c rest).1.Covers (length + 1) := by
  simpa [Piece.Covers, Piece.read, Lead.of_digit lead] using enough

theorem Trivia.covers_read (t : Trivia) (split : t.text = c :: tail) :
    (Piece.read c (tail ++ more)).1.Covers t.text.length := by
  cases t with
  | blank b =>
      have read : Piece.read c (tail ++ more) = _ :=
        Part.read_of_ends (p := .trivia (.blank b)) split trivial
      cases b <;> simp [read, Piece.Covers, Part.piece, Part.shape, Part.text]
  | comment body =>
      cases split
      have run : body.text.length ≤ ((body.text ++ more).takeWhile (· ≠ '\n')).length := by
        rw [List.takeWhile_append_of_pos body.ne, List.length_append]
        omega
      simpa [Piece.Covers, Piece.read, Lead.of, Mark.single?, Mark.operator?, Trivia.text] using run

/-- No regular part is longer than what is read where it begins. -/
theorem Part.covers_read {q : Part} (regular : q.IsRegular) (split : q.text = c :: tail) :
    (Piece.read c (tail ++ more)).1.Covers q.text.length := by
  cases q with
  | stray | unclosed => exact regular.elim
  | trivia t => exact t.covers_read more split
  | lexeme l =>
      cases l with
      | mark m => exact m.covers_read more split
      | word w =>
          cases split
          exact w.covers_read more
      | whole d =>
          have eq : d.text = c :: tail := split
          have lead : IsDigit c := d.digits c (by simp [eq])
          have digits : ∀ c ∈ tail, isDigit c = true := fun c member =>
            d.isDigit c (by simp [eq, member])
          rw [split]
          exact Piece.covers_read_number lead (Piece.length_le_readNumber_whole more digits)
      | decimal d f =>
          obtain ⟨first, others, eq⟩ := List.exists_cons_of_ne_nil d.nonempty
          have split' := split
          simp only [text, Lexeme.text, eq, List.cons_append, List.cons.injEq] at split'
          obtain ⟨rfl, rfl⟩ := split'
          have lead : IsDigit first := d.digits first (by simp [eq])
          have digits : ∀ c ∈ others, isDigit c = true := fun c member =>
            d.isDigit c (by simp [eq, member])
          rw [split]
          exact Piece.covers_read_number lead (Piece.length_le_readNumber_decimal more digits f)
      | quoted body =>
          have read : Piece.read c (tail ++ more) = _ :=
            Part.read_of_ends (p := .lexeme (.quoted body)) split trivial
          simp [read, Piece.Covers, piece, shape]

end Reading

/-! ## Divided lists are decompositions -/

/-- A regular part has no text in common with another. -/
theorem Part.eq_of_text_eq {p q : Part} (hp : p.IsRegular) (hq : q.IsRegular)
    (same : p.text = q.text) : p = q := by
  have divided : Divided [p] := ⟨hp.ends_nil, trivial⟩
  simpa using divided.unique (b := [q]) ⟨hq.ends_nil, trivial⟩ (by simp [same])

section Longest

variable {p q : Part} {rest : List Char}

/-- Where a regular part begins, a regular part is cut off, and it is no shorter. -/
theorem Part.Ends.covers (ends : p.Ends rest) (regular : q.IsRegular)
    (isPrefix : q.text <+: p.text ++ rest) : p.piece.Covers q.text.length := by
  obtain ⟨more, same⟩ := isPrefix
  obtain ⟨c, tail, split⟩ := List.exists_cons_of_ne_nil q.text_ne_nil
  obtain ⟨d, others, eq⟩ := List.exists_cons_of_ne_nil p.text_ne_nil
  rw [split, eq, List.cons_append, List.cons_append] at same
  obtain ⟨rfl, same_tail⟩ := List.cons.inj same
  have covers := Part.covers_read more regular split
  rwa [same_tail, Part.read_of_ends eq ends] at covers

theorem Part.isRegular_of_covers {length : Nat} (h : p.piece.Covers length) : p.IsRegular := by
  obtain ⟨-, closed, known⟩ := h
  cases p with
  | lexeme | trivia => trivial
  | stray c => exact known c rfl
  | unclosed body => exact closed rfl

theorem Part.Ends.isLongest (ends : p.Ends rest) (regular : p.IsRegular) :
    p.IsLongest (p.text ++ rest) :=
  ⟨regular, List.prefix_append _ _, fun _ hq isPrefix => (ends.covers hq isPrefix).1⟩

theorem Part.Ends.irregular (ends : p.Ends rest) (stray : ¬ p.IsRegular) :
    Irregular (p.text ++ rest) :=
  fun _ regular isPrefix => stray (Part.isRegular_of_covers (ends.covers regular isPrefix))

end Longest

/-- The parts of a divided list decompose its texts. -/
theorem Divided.decomposes {parts : List Part} (h : Divided parts) :
    Decomposes (Part.texts parts) parts := by
  induction parts with
  | nil => exact .done
  | cons p parts ih =>
      obtain ⟨ends, h⟩ := h
      cases p with
      | lexeme l => exact .longest rfl (ends.isLongest trivial) (ih h)
      | trivia t => exact .longest rfl (ends.isLongest trivial) (ih h)
      | stray c =>
          refine .stray (ends.irregular id) ?_ (ih h)
          rintro rfl
          exact absurd (show Lead.of '"' = .stray from ends) (by decide)
      | unclosed body =>
          obtain rfl : parts = [] := Part.texts_eq_nil_iff.mp ends.2
          have irregular := ends.irregular id
          rw [Part.texts_nil, List.append_nil] at irregular
          simpa using! Decomposes.unclosed irregular

/-- Whatever decomposes a text is the divided list of that text. -/
theorem Decomposes.eq_of_divided {text : List Char} {parts others : List Part}
    (h : Decomposes text parts) (divided : Divided others) (split : Part.texts others = text) :
    others = parts := by
  induction h generalizing others with
  | done => exact Part.texts_eq_nil_iff.mp split
  | @longest text rest p parts eq longest _ ih =>
      obtain ⟨regular, isPrefix, bound⟩ := longest
      cases others with
      | nil =>
          rw [eq] at split
          simp [p.text_ne_nil] at split
      | cons q others =>
          obtain ⟨ends, divided⟩ := divided
          rw [← split] at isPrefix
          have covers := ends.covers regular isPrefix
          have regular' := Part.isRegular_of_covers covers
          have long : p.text.length ≤ q.text.length := covers.1
          have short := bound q regular' (split ▸ List.prefix_append _ _)
          rw [eq] at split
          obtain ⟨same, same_rest⟩ := List.append_inj split (by omega)
          rw [Part.eq_of_text_eq regular' regular same, ih divided same_rest]
  | @unclosed body irregular =>
      cases others with
      | nil => simp at split
      | cons q others =>
          obtain ⟨ends, -⟩ := divided
          have unknown : ¬ q.IsRegular := fun h => irregular q h (split ▸ List.prefix_append _ _)
          cases q with
          | lexeme | trivia => exact absurd trivial unknown
          | stray c =>
              obtain ⟨rfl, -⟩ := List.cons.inj split
              exact absurd (show Lead.of '"' = .stray from ends) (by decide)
          | unclosed body' =>
              obtain rfl : others = [] := Part.texts_eq_nil_iff.mp ends.2
              rw [Part.texts_cons, Part.texts_nil, List.append_nil] at split
              rw [(List.cons.inj split).2]
  | @stray c rest parts irregular noQuote _ ih =>
      cases others with
      | nil => simp at split
      | cons q others =>
          obtain ⟨ends, divided⟩ := divided
          have unknown : ¬ q.IsRegular := fun h => irregular q h (split ▸ List.prefix_append _ _)
          cases q with
          | lexeme | trivia => exact absurd trivial unknown
          | stray d =>
              obtain ⟨rfl, same_rest⟩ := List.cons.inj split
              rw [ih divided same_rest]
          | unclosed body => exact absurd (List.cons.inj split).1.symm noQuote

/-! ## A scan is the decomposition of its source -/

/-- A source has exactly one decomposition by longest match, and its scan yields the
tokens and faults of these parts. A word is a keyword exactly if it is spelt as one. -/
theorem scan_eq_outcome_of_decomposition (source : String) :
    (∃ parts, (∀ others, Decomposes source.toList others ↔ others = parts) ∧
      scan source = Part.outcome parts) ∧
    (∀ (w : Word) (k : Keyword),
      (Lexeme.word w).kind = .keyword k ↔ (Lexeme.word w).spelling = k.spelling) ∧
    ∀ w : Word, (Lexeme.word w).kind = .identifier ↔
      ∀ k : Keyword, (Lexeme.word w).spelling ≠ k.spelling := by
  obtain ⟨parts, divided, split⟩ := exists_divided source.toList
  refine ⟨⟨parts, ?_, scan_eq_outcome divided split⟩, ?_, ?_⟩
  · intro others
    constructor
    · intro h
      exact (h.eq_of_divided divided split).symm
    · rintro rfl
      exact split ▸ divided.decomposes
  · exact fun _ _ => Kind.ofWord_eq_keyword_iff
  · exact fun _ => Kind.ofWord_eq_identifier_iff

end LoxLexer
