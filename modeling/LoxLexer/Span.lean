-- SUMMARY: Measures of text (byte length, line breaks), spans, and the position that reading a text leads to.

/-!
# Positions and spans

Offsets and lengths count the bytes of the UTF-8 encoding; lines count from one.
Both measures are additive on texts, so the position reached by reading two texts
in turn is the position reached by reading their concatenation.
-/

namespace LoxLexer

/-! ## Measures of a text -/

/-- The number of bytes of a text in UTF-8. -/
def byteLength (text : List Char) : Nat := text.foldr (fun c n => c.utf8Size + n) 0

/-- The number of line breaks in a text. -/
def lineBreaks (text : List Char) : Nat := text.count '\n'

@[simp] theorem byteLength_nil : byteLength [] = 0 := rfl

@[simp] theorem byteLength_cons (c : Char) (text : List Char) :
    byteLength (c :: text) = c.utf8Size + byteLength text := rfl

@[simp] theorem byteLength_append (a b : List Char) :
    byteLength (a ++ b) = byteLength a + byteLength b := by
  induction a with
  | nil => simp
  | cons c a ih => rw [List.cons_append, byteLength_cons, byteLength_cons, ih, Nat.add_assoc]

theorem length_le_byteLength (text : List Char) : text.length ≤ byteLength text := by
  induction text with
  | nil => simp
  | cons c text ih =>
    have := c.utf8Size_pos
    simp only [List.length_cons, byteLength_cons]
    omega

theorem byteLength_eq_zero_iff {text : List Char} : byteLength text = 0 ↔ text = [] := by
  constructor
  · intro none
    have := length_le_byteLength text
    exact List.length_eq_zero_iff.mp (by omega)
  · rintro rfl
    rfl

@[simp] theorem lineBreaks_nil : lineBreaks [] = 0 := rfl

@[simp] theorem lineBreaks_append (a b : List Char) :
    lineBreaks (a ++ b) = lineBreaks a + lineBreaks b := by
  simp [lineBreaks]

/-! ## Spans -/

/-- A stretch of the source, in bytes. -/
structure Span where
  offset : Nat
  length : Nat
  deriving DecidableEq, Repr, Inhabited

/-- The offset just behind a span. -/
def Span.stop (s : Span) : Nat := s.offset + s.length

/-! ## Positions -/

/-- A place in the source: the bytes before it, and the line it is on. -/
structure Position where
  offset : Nat
  line : Nat
  deriving DecidableEq, Repr, Inhabited

namespace Position

/-- The place before the first character. -/
def start : Position := ⟨0, 1⟩

/-- The place reached by reading a text. -/
def after (p : Position) (text : List Char) : Position :=
  ⟨p.offset + byteLength text, p.line + lineBreaks text⟩

/-- The span of a text that begins here. -/
def span (p : Position) (text : List Char) : Span := ⟨p.offset, byteLength text⟩

@[simp] theorem after_nil (p : Position) : p.after [] = p := rfl

theorem after_append (p : Position) (a b : List Char) :
    p.after (a ++ b) = (p.after a).after b := by
  simp [after, Nat.add_assoc]

theorem stop_span (p : Position) (text : List Char) :
    (p.span text).stop = (p.after text).offset := rfl

end Position

end LoxLexer
