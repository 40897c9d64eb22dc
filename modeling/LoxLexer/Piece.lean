-- SUMMARY: The division of a source into pieces: one longest piece after the other, each with its shape and its text.
import LoxLexer.Lead

/-!
# Pieces of source

A source is divided from left to right. `Piece.read` takes the first character and
what follows and cuts off the longest piece that the character commits to; what is
left is divided in the same way. Pieces have a shape and a text, and nothing is
lost: the texts of all pieces, one after the other, are the source.
-/

namespace LoxLexer

/-! ## Shapes -/

/-- What a piece of source is. -/
inductive Shape where
  | mark (m : Mark)
  | word
  | number
  /-- A string with both quotes. -/
  | quoted
  /-- A line comment, without the line break that ends it. -/
  | comment
  | blank
  | newline
  /-- A character that begins no token. -/
  | stray (c : Char)
  /-- A string without a closing quote: all the rest of the source. -/
  | unclosed
  deriving DecidableEq, Repr

/-- A stretch of source that belongs together. -/
structure Piece where
  shape : Shape
  text : List Char
  deriving DecidableEq, Repr

namespace Piece

/-! ## Reading one piece -/

/-- The digits and fraction that continue a number, and what follows them. A
point belongs to the number only if a digit follows it. -/
def readNumber (rest : List Char) : List Char × List Char :=
  let whole := rest.takeWhile isDigit
  match rest.dropWhile isDigit with
  | '.' :: c :: rest =>
    if isDigit c then (whole ++ '.' :: c :: rest.takeWhile isDigit, rest.dropWhile isDigit)
    else (whole, '.' :: c :: rest)
  | rest => (whole, rest)

/-- The piece that begins with a character, and what follows the piece. -/
def read (c : Char) (rest : List Char) : Piece × List Char :=
  match Lead.of c with
  | .single m => (⟨.mark m, [c]⟩, rest)
  | .operator short long =>
    let doubled := if rest.head? = some '=' then 1 else 0
    (⟨.mark (munch short long rest.head?), c :: rest.take doubled⟩, rest.drop doubled)
  | .slash =>
    if rest.head? = some '/' then
      (⟨.comment, c :: rest.takeWhile (· ≠ '\n')⟩, rest.dropWhile (· ≠ '\n'))
    else
      (⟨.mark .slash, [c]⟩, rest)
  | .blank => (⟨.blank, [c]⟩, rest)
  | .newline => (⟨.newline, [c]⟩, rest)
  | .quote =>
    match rest.dropWhile (· ≠ '"') with
    | [] => (⟨.unclosed, c :: rest⟩, [])
    | quote :: after => (⟨.quoted, c :: rest.takeWhile (· ≠ '"') ++ [quote]⟩, after)
  | .digit => (⟨.number, c :: (readNumber rest).1⟩, (readNumber rest).2)
  | .wordStart => (⟨.word, c :: rest.takeWhile isWordPart⟩, rest.dropWhile isWordPart)
  | .stray => (⟨.stray c, [c]⟩, rest)

theorem readNumber_append (rest : List Char) :
    (readNumber rest).1 ++ (readNumber rest).2 = rest := by
  unfold readNumber
  have cut := List.takeWhile_append_dropWhile (p := isDigit) (l := rest)
  dsimp only
  split
  · next c after h =>
    rw [h] at cut
    split
    · simpa using cut
    · exact cut
  · exact cut

/-- Reading a piece loses nothing. -/
theorem read_append (c : Char) (rest : List Char) :
    (read c rest).1.text ++ (read c rest).2 = c :: rest := by
  unfold read
  split
  · rfl
  · simp
  · split <;> simp
  · rfl
  · rfl
  · have cut := List.takeWhile_append_dropWhile (p := (· ≠ '"')) (l := rest)
    split
    · simp
    · next quote after h =>
      rw [h] at cut
      simpa using cut
  · simp [readNumber_append]
  · simp
  · rfl

theorem read_text_ne_nil (c : Char) (rest : List Char) : (read c rest).1.text ≠ [] := by
  unfold read
  split <;> (try split) <;> simp

/-- What follows a piece is shorter than what was there. -/
theorem length_read_lt (c : Char) (rest : List Char) :
    (read c rest).2.length < (c :: rest).length := by
  rw [← read_append c rest, List.length_append]
  have := List.length_pos_iff.mpr (read_text_ne_nil c rest)
  omega

/-! ## Dividing a source -/

/-- The pieces of a source, in order. -/
def divide : List Char → List Piece
  | [] => []
  | c :: rest => (read c rest).1 :: divide (read c rest).2
termination_by source => source.length
decreasing_by exact length_read_lt c rest

@[simp] theorem divide_nil : divide [] = [] := by rw [divide]

theorem divide_cons (c : Char) (rest : List Char) :
    divide (c :: rest) = (read c rest).1 :: divide (read c rest).2 := by rw [divide]

end Piece

end LoxLexer
