-- SUMMARY: Where a part may end, and that dividing a text yields exactly the parts that end where they may.
import LoxLexer.Proofs.Grammar

/-!
# The division of a text

How far a part reaches depends on a character or two of what follows it.
`Part.Ends` states this once for each part, and `Divided` asks it of every part of
a list. Dividing the texts of such a list gives the list back, and every text is
the texts of exactly one such list; so statements about `Piece.divide` become
statements about `Divided`, which looks at one part at a time.
-/

namespace LoxLexer

/-! ## Leads of letters and digits -/

/-- A letter or a digit is no mark, no blank and no quote. -/
theorem Lead.of_wordPart {c : Char} (h : isWordPart c = true) :
    Lead.of c = if isDigit c then .digit else .wordStart := by
  have single : Mark.single? c = none := by
    unfold Mark.single?
    split <;> first | rfl | exact absurd h (by decide)
  have operator : Mark.operator? c = none := by
    unfold Mark.operator?
    split <;> first | rfl | exact absurd h (by decide)
  have other : ∀ d ∈ ['/', ' ', '\t', '\r', '\n', '"'], c ≠ d := by
    rintro d member rfl
    simp only [List.mem_cons, List.not_mem_nil, or_false] at member
    rcases member with rfl | rfl | rfl | rfl | rfl | rfl <;> exact absurd h (by decide)
  have start : isDigit c = false → isWordStart c = true := by
    intro noDigit
    simpa [isWordPart_iff, isWordStart_iff, ← isDigit_iff, noDigit] using h
  simp only [List.mem_cons, List.not_mem_nil, or_false, forall_eq_or_imp, forall_eq] at other
  unfold Lead.of
  rw [single, operator]
  simp only [other, or_self, if_false]
  cases digit : isDigit c with
  | true => rfl
  | false => simp [start digit]

theorem Lead.of_digit {c : Char} (h : IsDigit c) : Lead.of c = .digit := by
  rw [Lead.of_wordPart ((isWordPart_iff c).mpr (.inr h)), if_pos ((isDigit_iff c).mpr h)]

theorem IsLetter.not_digit {c : Char} (h : IsLetter c) : ¬ IsDigit c := by
  unfold IsLetter at h
  simp only [IsDigit, Char.le_def, UInt32.le_iff_toNat_le] at h ⊢
  rintro ⟨low, high⟩
  have : '9'.val.toNat = 57 := rfl
  have : 'A'.val.toNat = 65 := rfl
  have : 'a'.val.toNat = 97 := rfl
  rcases h with upper | lower | rfl
  · omega
  · omega
  · exact absurd high (by decide)

theorem Lead.of_letter {c : Char} (h : IsLetter c) : Lead.of c = .wordStart := by
  rw [Lead.of_wordPart ((isWordPart_iff c).mpr (.inl h)), if_neg]
  rw [isDigit_iff]
  exact h.not_digit

/-- What a lead says about its character. -/
def Lead.Fits (c : Char) : Lead → Prop
  | .single m => Mark.single? c = some m
  | .operator short long => Mark.operator? c = some (short, long)
  | .slash => c = '/'
  | .blank => c = ' ' ∨ c = '\t' ∨ c = '\r'
  | .newline => c = '\n'
  | .quote => c = '"'
  | .digit => IsDigit c
  | .wordStart => IsLetter c
  | .stray => True

theorem Lead.fits_of (c : Char) : (Lead.of c).Fits c := by
  unfold Lead.of
  grind [Lead.Fits, isWordStart_iff, isDigit_iff]

/-! ## Where a part may end -/

/-- An operator without `=` may not be followed by one, a slash not by a slash. -/
def Mark.Ends : Mark → List Char → Prop
  | .bang, rest | .equal, rest | .less, rest | .greater, rest => rest.head? ≠ some '='
  | .slash, rest => rest.head? ≠ some '/'
  | _, _ => True

def Lexeme.Ends : Lexeme → List Char → Prop
  | .mark m, rest => m.Ends rest
  | .word _, rest => ∀ c ∈ rest.head?, isWordPart c = false
  | .whole _, rest =>
    (∀ c ∈ rest.head?, isDigit c = false) ∧ ∀ c tail, rest = '.' :: c :: tail → isDigit c = false
  | .decimal .., rest => ∀ c ∈ rest.head?, isDigit c = false
  | .quoted _, _ => True

def Trivia.Ends : Trivia → List Char → Prop
  | .blank _, _ => True
  | .comment _, rest => ∀ c ∈ rest.head?, c = '\n'

/-- Whether a part may end in front of a text. -/
def Part.Ends : Part → List Char → Prop
  | .lexeme l, rest => l.Ends rest
  | .trivia t, rest => t.Ends rest
  | .stray c, _ => Lead.of c = .stray
  | .unclosed body, rest => '"' ∉ body ∧ rest = []

/-- Nothing more is needed at the end of the text. -/
theorem Lexeme.ends_nil (l : Lexeme) : l.Ends [] := by
  cases l with
  | mark m => cases m <;> simp [Lexeme.Ends, Mark.Ends]
  | _ => simp [Lexeme.Ends]

theorem Part.IsRegular.ends_nil {p : Part} (regular : p.IsRegular) : p.Ends [] := by
  cases p with
  | lexeme l => exact l.ends_nil
  | trivia t => cases t <;> simp [Part.Ends, Trivia.Ends]
  | stray | unclosed => exact regular.elim

section Marks

variable {c : Char} {m short long : Mark} {rest : List Char}

theorem Mark.ends_of_single? (h : single? c = some m) : m.Ends rest := by
  unfold single? at h
  split at h <;> cases h <;> trivial

theorem Mark.ends_long (h : operator? c = some (short, long)) : long.Ends rest := by
  unfold operator? at h
  split at h <;> cases h <;> trivial

theorem Mark.ends_short (h : operator? c = some (short, long)) (next : rest.head? ≠ some '=') :
    short.Ends rest := by
  unfold operator? at h
  split at h <;> cases h <;> exact next

end Marks

/-! ## Reading a part -/

section Reading

variable {c : Char} {tail rest : List Char}

theorem Piece.readNumber_whole (inside : ∀ c ∈ tail, isDigit c = true)
    (boundary : ∀ c ∈ rest.head?, isDigit c = false)
    (point : ∀ c after, rest = '.' :: c :: after → isDigit c = false) :
    Piece.readNumber (tail ++ rest) = (tail, rest) := by
  unfold Piece.readNumber
  rw [takeWhile_run _ inside boundary, dropWhile_run _ inside boundary]
  dsimp only
  split
  · next c after => rw [if_neg (by simp [point c after rfl])]
  · rfl

/-- A point with a digit behind it belongs to the number. -/
theorem Piece.readNumber_fraction (inside : ∀ c ∈ tail, isDigit c = true) (f : Digits)
    (more : List Char) :
    Piece.readNumber (tail ++ '.' :: (f.text ++ more)) =
      (tail ++ '.' :: (f.text ++ more).takeWhile isDigit, (f.text ++ more).dropWhile isDigit) := by
  obtain ⟨c, others, eq⟩ := List.exists_cons_of_ne_nil f.nonempty
  have first : isDigit c = true := f.isDigit c (by simp [eq])
  have point : ∀ d ∈ ('.' :: c :: (others ++ more)).head?, isDigit d = false := by
    simp only [List.head?_cons, Option.mem_some, forall_eq']
    decide
  unfold Piece.readNumber
  rw [eq, List.cons_append, takeWhile_run _ inside point, dropWhile_run _ inside point]
  simp [first]

theorem Piece.readNumber_decimal (inside : ∀ c ∈ tail, isDigit c = true) (f : Digits)
    (boundary : ∀ c ∈ rest.head?, isDigit c = false) :
    Piece.readNumber (tail ++ '.' :: (f.text ++ rest)) = (tail ++ '.' :: f.text, rest) := by
  rw [Piece.readNumber_fraction inside, takeWhile_run _ f.isDigit boundary,
    dropWhile_run _ f.isDigit boundary]

theorem Mark.read (m : Mark) (split : m.spelling = c :: tail) (ends : m.Ends rest) :
    Piece.read c (tail ++ rest) = (⟨.mark m, m.spelling⟩, rest) := by
  cases m <;> cases split <;> simp only [Mark.Ends] at ends <;>
    simp [Piece.read, Lead.of, Mark.single?, Mark.operator?, munch, Mark.spelling, ends]

theorem Word.read (w : Word) (boundary : ∀ c ∈ rest.head?, isWordPart c = false) :
    Piece.read w.first (w.others ++ rest) = (⟨.word, w.first :: w.others⟩, rest) := by
  have parts : ∀ c ∈ w.others, isWordPart c = true := fun c member =>
    (isWordPart_iff c).mpr (w.parts c member)
  simp only [Piece.read, Lead.of_letter w.letter, takeWhile_run _ parts boundary,
    dropWhile_run _ parts boundary]

theorem Piece.read_quoted (body : Without '"') :
    Piece.read '"' (body.text ++ '"' :: rest) =
      (⟨.quoted, '"' :: body.text ++ ['"']⟩, rest) := by
  have lead : Lead.of '"' = .quote := rfl
  have boundary : ∀ c ∈ ('"' :: rest).head?, decide (c ≠ '"') = false := by simp
  simp only [Piece.read, lead, takeWhile_run _ body.ne boundary, dropWhile_run _ body.ne boundary]

theorem Piece.read_comment (body : Without '\n') (boundary : ∀ c ∈ rest.head?, c = '\n') :
    Piece.read '/' ('/' :: body.text ++ rest) = (⟨.comment, '/' :: '/' :: body.text⟩, rest) := by
  have lead : Lead.of '/' = .slash := rfl
  have inside : ∀ c ∈ '/' :: body.text, decide (c ≠ '\n') = true := by
    intro c member
    rcases List.mem_cons.mp member with rfl | member
    · rfl
    · exact body.ne c member
  have outside : ∀ c ∈ rest.head?, decide (c ≠ '\n') = false := by
    intro c member
    simpa using boundary c member
  simp only [Piece.read, lead, takeWhile_run _ inside outside, dropWhile_run _ inside outside]
  rfl

theorem Piece.read_unclosed (absent : '"' ∉ tail) :
    Piece.read '"' tail = (⟨.unclosed, '"' :: tail⟩, []) := by
  have lead : Lead.of '"' = .quote := rfl
  have none : tail.dropWhile (· ≠ '"') = [] := by
    have := dropWhile_run [] (Without.ne ⟨tail, absent⟩) (by simp)
    rwa [List.append_nil] at this
  simp only [Piece.read, lead, none]

/-- A part that ends where it may is read as a whole. -/
theorem Part.read_of_ends {p : Part} (split : p.text = c :: tail) (ends : p.Ends rest) :
    Piece.read c (tail ++ rest) = (p.piece, rest) := by
  cases p with
  | lexeme l =>
      cases l with
      | mark m => exact m.read split ends
      | word w =>
          cases split
          exact w.read ends
      | whole d =>
          have eq : d.text = c :: tail := split
          have lead : IsDigit c := d.digits c (by simp [eq])
          have digits : ∀ c ∈ tail, isDigit c = true := fun c member =>
            d.isDigit c (by simp [eq, member])
          simp only [Piece.read, Lead.of_digit lead, Piece.readNumber_whole digits ends.1 ends.2,
            piece, shape, split]
      | decimal d f =>
          obtain ⟨first, others, eq⟩ := List.exists_cons_of_ne_nil d.nonempty
          simp only [text, Lexeme.text, eq, List.cons_append, List.cons.injEq] at split
          obtain ⟨rfl, rfl⟩ := split
          have lead : IsDigit first := d.digits first (by simp [eq])
          have digits : ∀ c ∈ others, isDigit c = true := fun c member =>
            d.isDigit c (by simp [eq, member])
          rw [List.append_assoc, List.cons_append]
          simp only [Piece.read, Lead.of_digit lead, Piece.readNumber_decimal digits f ends, piece,
            shape, text, Lexeme.text, eq, List.cons_append]
      | quoted body =>
          cases split
          simpa using! Piece.read_quoted body
  | trivia t =>
      cases t with
      | blank b => cases b <;> cases split <;> rfl
      | comment body =>
          cases split
          exact Piece.read_comment body ends
  | stray c =>
      cases split
      simp only [Piece.read, show Lead.of c = .stray from ends]
      rfl
  | unclosed body =>
      cases split
      obtain ⟨absent, rfl⟩ := ends
      simpa using! Piece.read_unclosed absent

end Reading

/-! ## Every text begins with a part -/

section Beginning

variable {c : Char} (tail : List Char)

/-- A text begins with a part that ends where it may. -/
def BeginsWithPart (text : List Char) : Prop :=
  ∃ (p : Part) (rest : List Char), p.text ++ rest = text ∧ p.Ends rest

theorem begins_single {m : Mark} (h : Mark.single? c = some m) : BeginsWithPart (c :: tail) := by
  refine ⟨.lexeme (.mark m), tail, ?_, Mark.ends_of_single? h⟩
  simp [Part.text, Lexeme.text, Mark.spelling_of_single? h]

theorem begins_operator {short long : Mark} (h : Mark.operator? c = some (short, long)) :
    BeginsWithPart (c :: tail) := by
  obtain ⟨short_eq, long_eq⟩ := Mark.spelling_of_operator? h
  by_cases next : tail.head? = some '='
  · obtain ⟨rest, rfl⟩ := List.head?_eq_some_iff.mp next
    refine ⟨.lexeme (.mark long), rest, ?_, Mark.ends_long h⟩
    simp [Part.text, Lexeme.text, long_eq]
  · refine ⟨.lexeme (.mark short), tail, ?_, Mark.ends_short h next⟩
    simp [Part.text, Lexeme.text, short_eq]

theorem begins_slash : BeginsWithPart ('/' :: tail) := by
  by_cases next : tail.head? = some '/'
  · obtain ⟨after, rfl⟩ := List.head?_eq_some_iff.mp next
    obtain ⟨body, rest, rfl, inside, boundary⟩ := exists_run (· ≠ '\n') after
    have absent : '\n' ∉ body := fun member => by simpa using inside _ member
    have ends : ∀ c ∈ rest.head?, c = '\n' := by simpa using boundary
    exact ⟨.trivia (.comment ⟨body, absent⟩), rest, rfl, ends⟩
  · exact ⟨.lexeme (.mark .slash), tail, rfl, next⟩

theorem begins_quote : BeginsWithPart ('"' :: tail) := by
  obtain ⟨body, rest, rfl, inside, boundary⟩ := exists_run (· ≠ '"') tail
  have absent : '"' ∉ body := fun member => by simpa using inside _ member
  cases rest with
  | nil => exact ⟨.unclosed body, [], by simp [Part.text], absent, rfl⟩
  | cons quote rest =>
      have eq : quote = '"' := by simpa using boundary
      exact ⟨.lexeme (.quoted ⟨body, absent⟩), rest, by simp [Part.text, Lexeme.text, eq], trivial⟩

theorem begins_digit (h : IsDigit c) : BeginsWithPart (c :: tail) := by
  obtain ⟨run, after, rfl, inside, boundary⟩ := exists_run isDigit tail
  have digits : ∀ d ∈ c :: run, IsDigit d :=
    List.forall_mem_cons.mpr ⟨h, fun d member => (isDigit_iff d).mp (inside d member)⟩
  let d : Digits := ⟨c :: run, by simp, digits⟩
  by_cases point : ∃ f more, after = '.' :: f :: more ∧ isDigit f = true
  · obtain ⟨f, more, rfl, first⟩ := point
    obtain ⟨others, rest, rfl, inside, boundary⟩ := exists_run isDigit more
    have fraction : ∀ d ∈ f :: others, IsDigit d :=
      List.forall_mem_cons.mpr ⟨(isDigit_iff f).mp first,
        fun d member => (isDigit_iff d).mp (inside d member)⟩
    exact ⟨.lexeme (.decimal d ⟨f :: others, by simp, fraction⟩), rest,
      by simp [Part.text, Lexeme.text, d], boundary⟩
  · refine ⟨.lexeme (.whole d), after, rfl, boundary, ?_⟩
    intro f more eq
    exact Bool.eq_false_iff.mpr fun digit => point ⟨f, more, eq, digit⟩

theorem begins_letter (h : IsLetter c) : BeginsWithPart (c :: tail) := by
  obtain ⟨run, rest, rfl, inside, boundary⟩ := exists_run isWordPart tail
  have parts : ∀ d ∈ run, IsLetter d ∨ IsDigit d := fun d member =>
    (isWordPart_iff d).mp (inside d member)
  exact ⟨.lexeme (.word ⟨c, run, h, parts⟩), rest, rfl, boundary⟩

theorem beginsWithPart (c : Char) : BeginsWithPart (c :: tail) := by
  have fits := Lead.fits_of c
  cases lead : Lead.of c <;> rw [lead] at fits
  case stray => exact ⟨.stray c, tail, rfl, lead⟩
  case single m => exact begins_single tail fits
  case operator short long => exact begins_operator tail fits
  case digit => exact begins_digit tail fits
  case wordStart => exact begins_letter tail fits
  case slash =>
      cases fits
      exact begins_slash tail
  case quote =>
      cases fits
      exact begins_quote tail
  case newline =>
      cases fits
      exact ⟨.trivia (.blank .newline), tail, rfl, trivial⟩
  case blank =>
      rcases fits with rfl | rfl | rfl
      · exact ⟨.trivia (.blank .space), tail, rfl, trivial⟩
      · exact ⟨.trivia (.blank .tab), tail, rfl, trivial⟩
      · exact ⟨.trivia (.blank .carriageReturn), tail, rfl, trivial⟩

end Beginning

/-! ## Divided lists of parts -/

/-- Every part of the list may end in front of those that follow it. -/
def Divided : List Part → Prop
  | [] => True
  | p :: parts => p.Ends (Part.texts parts) ∧ Divided parts

theorem Divided.right {a b : List Part} (h : Divided (a ++ b)) : Divided b := by
  induction a with
  | nil => exact h
  | cons p a ih => exact ih h.2

/-- The texts of a divided list divide into its parts. -/
theorem Divided.divide_texts {parts : List Part} (h : Divided parts) :
    Piece.divide (Part.texts parts) = parts.map Part.piece := by
  induction parts with
  | nil => exact Piece.divide_nil
  | cons p parts ih =>
      obtain ⟨ends, h⟩ := h
      obtain ⟨c, tail, split⟩ := List.exists_cons_of_ne_nil p.text_ne_nil
      rw [Part.texts_cons, split, List.cons_append, Piece.divide_cons,
        Part.read_of_ends split ends, ih h]
      rfl

/-- Every text is that of a divided list. -/
theorem exists_divided (source : List Char) :
    ∃ parts, Divided parts ∧ Part.texts parts = source := by
  induction size : source.length using Nat.strongRecOn generalizing source with
  | ind n ih =>
      cases source with
      | nil => exact ⟨[], trivial, rfl⟩
      | cons c tail =>
          obtain ⟨p, rest, split, ends⟩ := beginsWithPart tail c
          have := List.length_pos_iff.mpr p.text_ne_nil
          have shorter : rest.length < n := by
            rw [← size, ← split, List.length_append]
            omega
          obtain ⟨parts, h, rfl⟩ := ih _ shorter rest rfl
          exact ⟨p :: parts, ⟨ends, h⟩, split⟩

/-- Only one divided list has given texts. -/
theorem Divided.unique {a b : List Part} (ha : Divided a) (hb : Divided b)
    (same : Part.texts a = Part.texts b) : a = b := by
  have pieces : a.map Part.piece = b.map Part.piece := by
    rw [← ha.divide_texts, ← hb.divide_texts, same]
  exact (List.map_inj_right fun _ _ => Part.piece_injective).mp pieces

/-- A divided list begins with every part that its texts begin with and that may
end there. -/
theorem Divided.eq_cons {p : Part} {parts : List Part} {rest : List Char} (h : Divided parts)
    (split : Part.texts parts = p.text ++ rest) (ends : p.Ends rest) :
    ∃ others, parts = p :: others ∧ Divided others ∧ Part.texts others = rest := by
  obtain ⟨others, divided, rfl⟩ := exists_divided rest
  exact ⟨others, h.unique (b := p :: others) ⟨ends, divided⟩ split, divided, rfl⟩

end LoxLexer
