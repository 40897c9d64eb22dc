-- SUMMARY: The lexical grammar of Lox: lexemes, trivia, and the parts that a text is made of, with the text and the meaning of each.
import LoxLexer.Finding

/-!
# The lexical grammar

A Lox text is made of *parts*. A part of the grammar is a lexeme, which becomes a
token, or trivia, which mean nothing; what the grammar does not know is a stray
character or a string that is never closed. The types carry the rules of the
grammar, so every `Lexeme` and every `Trivia` is well formed.

Nothing here says how a text is read. `Part.piece` is the link to the pieces that
reading cuts off: parts and pieces have the same texts and the same meanings, but a
piece is any shape with any text.
-/

namespace LoxLexer

/-! ## Characters and runs of characters -/

/-- The digits `0` to `9`. -/
def IsDigit (c : Char) : Prop := '0' ≤ c ∧ c ≤ '9'

/-- What a word may begin with. -/
def IsLetter (c : Char) : Prop := 'A' ≤ c ∧ c ≤ 'Z' ∨ 'a' ≤ c ∧ c ≤ 'z' ∨ c = '_'

theorem isDigit_iff (c : Char) : isDigit c = true ↔ IsDigit c := by
  simp [isDigit, Char.isDigit, IsDigit, Char.le_def]

theorem isWordStart_iff (c : Char) : isWordStart c = true ↔ IsLetter c := by
  have ranges : isWordStart c = (decide (c.val ≥ 'A'.val ∧ c.val ≤ 'Z'.val) ||
      (decide (c.val ≥ 'a'.val) && decide (c.val ≤ 'z'.val)) || c == '_') := rfl
  simp [ranges, IsLetter, Char.le_def, or_assoc]

theorem isWordPart_iff (c : Char) : isWordPart c = true ↔ IsLetter c ∨ IsDigit c := by
  simp only [← isWordStart_iff, ← isDigit_iff, isWordPart, isWordStart, isDigit, Char.isAlphanum,
    Bool.or_eq_true]
  exact or_right_comm

section Runs

variable {p : Char → Bool} {run : List Char} (rest : List Char)

/-- A run ends in front of the first character outside its class. -/
theorem takeWhile_run (inside : ∀ c ∈ run, p c = true)
    (boundary : ∀ c ∈ rest.head?, p c = false) : (run ++ rest).takeWhile p = run := by
  rw [List.takeWhile_append_of_pos inside]
  cases rest with
  | nil => simp
  | cons c rest => simp [boundary c rfl]

theorem dropWhile_run (inside : ∀ c ∈ run, p c = true)
    (boundary : ∀ c ∈ rest.head?, p c = false) : (run ++ rest).dropWhile p = rest := by
  rw [List.dropWhile_append_of_pos inside]
  cases rest with
  | nil => rfl
  | cons c rest => simp [boundary c rfl]

/-- Every text begins with a run, perhaps an empty one, of any class. -/
theorem exists_run (p : Char → Bool) (text : List Char) :
    ∃ run rest, run ++ rest = text ∧ (∀ c ∈ run, p c = true) ∧ ∀ c ∈ rest.head?, p c = false := by
  induction text with
  | nil => exact ⟨[], [], rfl, by simp, by simp⟩
  | cons c text ih =>
      by_cases h : p c = true
      · obtain ⟨run, rest, eq, inside, boundary⟩ := ih
        refine ⟨c :: run, rest, by rw [List.cons_append, eq], ?_, boundary⟩
        exact List.forall_mem_cons.mpr ⟨h, inside⟩
      · exact ⟨[], c :: text, rfl, by simp, by simpa using h⟩

end Runs

/-! ## Terminal classes -/

/-- A run of digits, at least one. -/
@[ext]
structure Digits where
  text : List Char
  nonempty : text ≠ []
  digits : ∀ c ∈ text, IsDigit c
  deriving DecidableEq

namespace Digits

/-- The whole number that a run of digits is. -/
def value (d : Digits) : Nat := Nat.ofDigitChars 10 d.text 0

theorem isDigit (d : Digits) : ∀ c ∈ d.text, LoxLexer.isDigit c = true :=
  fun c member => (isDigit_iff c).mpr (d.digits c member)

theorem ne_point {d : Digits} : ∀ c ∈ d.text, decide (c ≠ '.') = true := by
  intro c member
  have digit := d.digits c member
  rw [decide_eq_true_eq]
  rintro rfl
  exact absurd digit (by unfold IsDigit; decide)

theorem text_ne_decimal (d e f : Digits) : d.text ≠ e.text ++ '.' :: f.text := by
  intro same
  exact absurd (d.ne_point '.' (by simp [same])) (by decide)

/-- The point divides a decimal in one way only. -/
theorem eq_of_decimal_eq {d e f g : Digits}
    (same : d.text ++ '.' :: f.text = e.text ++ '.' :: g.text) : d = e ∧ f = g := by
  have whole := congrArg (List.takeWhile (· ≠ '.')) same
  rw [takeWhile_run _ d.ne_point (by simp), takeWhile_run _ e.ne_point (by simp)] at whole
  rw [whole] at same
  have fraction := (List.cons.inj (List.append_cancel_left same)).2
  exact ⟨Digits.ext whole, Digits.ext fraction⟩

theorem ofText_text (d : Digits) : Numeral.ofText d.text = ⟨d.value, 0⟩ := by
  have whole := takeWhile_run [] d.ne_point (by simp)
  have fraction := dropWhile_run [] d.ne_point (by simp)
  rw [List.append_nil] at whole fraction
  simp only [Numeral.ofText, whole, fraction, Digits.value]
  simp

theorem ofText_decimal (d f : Digits) :
    Numeral.ofText (d.text ++ '.' :: f.text) =
      ⟨Nat.pow 10 f.text.length * d.value + f.value, f.text.length⟩ := by
  have whole := takeWhile_run ('.' :: f.text) d.ne_point (by simp)
  have fraction := dropWhile_run ('.' :: f.text) d.ne_point (by simp)
  simp only [Numeral.ofText, whole, fraction, List.drop_one, List.tail_cons,
    Nat.ofDigitChars_append]
  rw [Nat.ofDigitChars_eq_ofDigitChars_zero]
  rfl

end Digits

/-- A letter and the letters and digits behind it. -/
@[ext]
structure Word where
  first : Char
  others : List Char
  letter : IsLetter first
  parts : ∀ c ∈ others, IsLetter c ∨ IsDigit c
  deriving DecidableEq

/-- A text in which a character does not occur. -/
@[ext]
structure Without (c : Char) where
  text : List Char
  absent : c ∉ text
  deriving DecidableEq

theorem Without.ne {c : Char} (w : Without c) : ∀ d ∈ w.text, decide (d ≠ c) = true := by
  intro d member
  rw [decide_eq_true_eq]
  rintro rfl
  exact w.absent member

/-- The first occurrence of a character divides a text in one way only. -/
theorem Without.append_cons_inj {c : Char} {v w : Without c} {rest rest' : List Char}
    (same : v.text ++ c :: rest = w.text ++ c :: rest') : v = w ∧ rest = rest' := by
  have texts := congrArg (List.takeWhile (· ≠ c)) same
  rw [takeWhile_run _ v.ne (by simp), takeWhile_run _ w.ne (by simp)] at texts
  rw [texts] at same
  exact ⟨Without.ext texts, (List.cons.inj (List.append_cancel_left same)).2⟩

/-- A space, tab, carriage return or line break. -/
inductive Blank where
  | space
  | tab
  | carriageReturn
  | newline
  deriving DecidableEq

def Blank.char : Blank → Char
  | space => ' '
  | tab => '\t'
  | carriageReturn => '\r'
  | newline => '\n'

theorem Blank.not_wordPart (b : Blank) : ¬ (IsLetter b.char ∨ IsDigit b.char) := by
  cases b <;>
    · unfold IsLetter IsDigit
      decide

theorem Digits.blank_not_mem_text (d : Digits) (b : Blank) : b.char ∉ d.text :=
  fun member => b.not_wordPart (.inr (d.digits _ member))

/-! ## Lexemes -/

/-- What may be the text of a token. -/
inductive Lexeme where
  /-- Punctuation or an operator. -/
  | mark (m : Mark)
  /-- An identifier or a reserved word. -/
  | word (w : Word)
  /-- A number without a fraction. -/
  | whole (digits : Digits)
  /-- A number with a fraction. -/
  | decimal (digits fraction : Digits)
  /-- A string. -/
  | quoted (body : Without '"')
  deriving DecidableEq

namespace Lexeme

def text : Lexeme → List Char
  | mark m => m.spelling
  | word w => w.first :: w.others
  | whole d => d.text
  | decimal d f => d.text ++ '.' :: f.text
  | quoted body => '"' :: body.text ++ ['"']

/-- The lexeme as a string. -/
def spelling (l : Lexeme) : String := String.ofList l.text

def kind : Lexeme → Kind
  | mark m => .mark m
  | word w => Kind.ofWord (String.ofList (w.first :: w.others))
  | whole _ | decimal .. => .number
  | quoted _ => .string

/-- The value of a number or a string. A fraction of `n` digits counts the digits
before it `10 ^ n` times, and is itself counted in parts of that size. -/
def literal : Lexeme → Option Literal
  | mark _ | word _ => none
  | whole d => some (.number (Binary64.ofRatio d.value 1))
  | decimal d f =>
    let parts := Nat.pow 10 f.text.length
    some (.number (Binary64.ofRatio (parts * d.value + f.value) parts))
  | quoted body => some (.string (String.ofList body.text))

theorem kind_ne_eof (l : Lexeme) : l.kind ≠ .eof := by
  cases l with
  | word w => exact Kind.ofWord_ne_eof _
  | _ => exact nofun

theorem kind_eq_string_iff {l : Lexeme} : l.kind = .string ↔ ∃ body, l = .quoted body := by
  constructor
  · intro eq
    cases l with
    | word w => exact absurd eq (Kind.ofWord_ne_string _)
    | quoted body => exact ⟨body, rfl⟩
    | _ => cases eq
  · rintro ⟨body, rfl⟩
    rfl

theorem text_ne_nil (l : Lexeme) : l.text ≠ [] := by
  cases l with
  | mark m => cases m <;> decide
  | word w => simp [text]
  | whole d => exact d.nonempty
  | decimal d f => simp [text]
  | quoted body => simp [text]

/-- No lexeme but a string has blanks inside. -/
theorem blank_not_mem_text {l : Lexeme} (h : l.kind ≠ .string) (b : Blank) : b.char ∉ l.text := by
  cases l with
  | mark m => cases m <;> cases b <;> decide
  | word w =>
      intro member
      rcases List.mem_cons.mp member with first | others
      · exact b.not_wordPart (.inl (first ▸ w.letter))
      · exact b.not_wordPart (w.parts _ others)
  | whole d => exact d.blank_not_mem_text b
  | decimal d f =>
      have point : b.char ≠ '.' := by cases b <;> decide
      rw [text, List.mem_append, List.mem_cons, not_or, not_or]
      exact ⟨d.blank_not_mem_text b, point, f.blank_not_mem_text b⟩
  | quoted body => exact absurd rfl h

end Lexeme

/-! ## Trivia -/

/-- What may stand between lexemes. -/
inductive Trivia where
  | blank (b : Blank)
  /-- A comment, without the line break that ends it. -/
  | comment (body : Without '\n')
  deriving DecidableEq

def Trivia.text : Trivia → List Char
  | blank b => [b.char]
  | comment body => '/' :: '/' :: body.text

/-! ## Parts -/

/-- A stretch of text that belongs together. -/
inductive Part where
  | lexeme (l : Lexeme)
  | trivia (t : Trivia)
  /-- A character that begins nothing. -/
  | stray (c : Char)
  /-- A quote that opens a string, and all the text behind it. -/
  | unclosed (body : List Char)
  deriving DecidableEq

namespace Part

def text : Part → List Char
  | lexeme l => l.text
  | trivia t => t.text
  | stray c => [c]
  | unclosed body => '"' :: body

/-- Whether the grammar knows the part. -/
def IsRegular : Part → Prop
  | lexeme _ | trivia _ => True
  | stray _ | unclosed _ => False

/-- The texts of parts, one after the other. -/
def texts (parts : List Part) : List Char := parts.flatMap text

@[simp] theorem texts_nil : texts [] = [] := rfl

@[simp] theorem texts_cons (p : Part) (parts : List Part) :
    texts (p :: parts) = p.text ++ texts parts := rfl

theorem texts_append (a b : List Part) : texts (a ++ b) = texts a ++ texts b :=
  List.flatMap_append

theorem text_ne_nil (p : Part) : p.text ≠ [] := by
  cases p with
  | lexeme l => exact l.text_ne_nil
  | trivia t => cases t <;> simp [text, Trivia.text]
  | stray c => simp [text]
  | unclosed body => simp [text]

@[simp] theorem texts_eq_nil_iff {parts : List Part} : texts parts = [] ↔ parts = [] := by
  cases parts with
  | nil => simp
  | cons p parts => simp [p.text_ne_nil]

theorem length_le_length_texts (parts : List Part) : parts.length ≤ (texts parts).length := by
  induction parts with
  | nil => exact Nat.le_refl _
  | cons p parts ih =>
      have := List.length_pos_iff.mpr p.text_ne_nil
      rw [List.length_cons, texts_cons, List.length_append]
      omega

/-! ## Parts as pieces -/

def shape : Part → Shape
  | lexeme (.mark m) => .mark m
  | lexeme (.word _) => .word
  | lexeme (.whole _) | lexeme (.decimal ..) => .number
  | lexeme (.quoted _) => .quoted
  | trivia (.blank .newline) => .newline
  | trivia (.blank _) => .blank
  | trivia (.comment _) => .comment
  | stray c => .stray c
  | unclosed _ => .unclosed

def piece (p : Part) : Piece := ⟨p.shape, p.text⟩

@[simp] theorem text_piece (p : Part) : p.piece.text = p.text := rfl

/-- Only one part has a given shape and a given text. -/
theorem piece_injective {p q : Part} (same : p.piece = q.piece) : p = q := by
  have shapes : p.shape = q.shape := congrArg Piece.shape same
  have texts : p.text = q.text := congrArg Piece.text same
  clear same
  -- Unequal shapes rule out all pairs but the equal ones and the two forms of number.
  fun_cases shape p <;> fun_cases shape q <;> simp_all [shape, text, Lexeme.text, Trivia.text]
  case case2.case2 v w => exact Word.ext texts.1 texts.2
  case case3.case3 d e => exact Digits.ext texts
  case case3.case4 d e f => exact d.text_ne_decimal e f texts
  case case4.case3 e f d => exact d.text_ne_decimal e f texts.symm
  case case4.case4 d f e g => exact Digits.eq_of_decimal_eq texts
  case case5.case5 a b => exact Without.ext texts
  case case7.case7 a b _ _ => cases a <;> cases b <;> simp_all [Blank.char]
  case case8.case8 a b => exact Without.ext texts

/-- What a part means, wherever it is. -/
def meaning : Part → Meaning
  | lexeme l => .token l.kind l.literal
  | trivia _ => .nothing
  | stray c => .fault (.stray c)
  | unclosed _ => .fault .unclosed

/-- A part and its piece mean the same. -/
theorem meaning_piece (p : Part) : p.piece.meaning = p.meaning := by
  cases p with
  | lexeme l =>
      cases l with
      | mark m => rfl
      | word w => rfl
      | whole d =>
          simp only [piece, shape, text, Lexeme.text, Piece.meaning, Digits.ofText_text]
          rfl
      | decimal d f =>
          simp only [piece, shape, text, Lexeme.text, Piece.meaning, Digits.ofText_decimal]
          rfl
      | quoted body =>
          simp [piece, shape, text, Lexeme.text, Piece.meaning, meaning, Lexeme.kind,
            Lexeme.literal]
  | trivia t =>
      cases t with
      | blank b => cases b <;> rfl
      | comment body => rfl
  | stray c => rfl
  | unclosed body => rfl

end Part

end LoxLexer
