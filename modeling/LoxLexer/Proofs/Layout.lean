-- SUMMARY: Lexemes laid out with blanks between them, which lexemes may touch, and that this is what the division of their text asks for.
import LoxLexer.Proofs.Place

/-!
# Layouts

A layout is a list of lexemes, each with the blanks behind it. Some lexemes run
together if no blank is between them: `Lexeme.merges` says which two do, and one
group of three does although no two of it do. A layout keeps apart if this happens
nowhere, and that is exactly the condition under which its parts are divided.
-/

namespace LoxLexer

/-- Lexemes, each with the blanks behind it. -/
abbrev Layout := List (Lexeme × List Blank)

def blanks (w : List Blank) : List Char := w.map Blank.char

namespace Lexeme

def isWord : Lexeme → Bool
  | word _ => true
  | _ => false

def isNumber : Lexeme → Bool
  | whole _ | decimal .. => true
  | _ => false

/-- Whether two lexemes run together if nothing stands between them. -/
def merges : Lexeme → Lexeme → Bool
  | word _, b => b.isWord || b.isNumber
  | whole _, b | decimal .., b => b.isNumber
  | mark .bang, b | mark .equal, b | mark .less, b | mark .greater, b =>
    b = mark .equal || b = mark .equalEqual
  | mark .slash, b => b = mark .slash
  | mark _, _ | quoted _, _ => false

/-! ## First characters of lexemes -/

variable {b : Lexeme} {c : Char} {tail : List Char}

/-- What a first character says about its lexeme. -/
structure First (b : Lexeme) (c : Char) : Prop where
  digit : LoxLexer.isDigit c = b.isNumber
  wordPart : isWordPart c = (b.isWord || b.isNumber)
  equal : c = '=' ↔ b = .mark .equal ∨ b = .mark .equalEqual
  slash : c = '/' ↔ b = .mark .slash
  dot : c = '.' ↔ b = .mark .dot
  noBlank : ∀ w : Blank, c ≠ w.char

theorem First.of_wordPart (part : isWordPart c = true) (digit : LoxLexer.isDigit c = b.isNumber)
    (plain : (b.isWord || b.isNumber) = true) : First b c := by
  have ne : ∀ d, isWordPart d = false → c ≠ d := by
    rintro d other rfl
    simp [part] at other
  have mark : ∀ m, b ≠ .mark m := by
    rintro m rfl
    cases plain
  refine ⟨digit, part.trans plain.symm, ?_, ?_, ?_, ?_⟩
  · simp [ne '=' (by decide), mark]
  · simp [ne '/' (by decide), mark]
  · simp [ne '.' (by decide), mark]
  · exact fun w => ne w.char (by cases w <;> decide)

theorem isDigit_of_isNumber (number : b.isNumber) (split : b.text = c :: tail) : IsDigit c := by
  cases b with
  | whole d =>
      have eq : d.text = c :: tail := split
      exact d.digits c (by simp [eq])
  | decimal d f =>
      obtain ⟨first, others, eq⟩ := List.exists_cons_of_ne_nil d.nonempty
      simp only [text, eq, List.cons_append, List.cons.injEq] at split
      exact d.digits c (by simp [eq, split])
  | _ => cases number

theorem first (split : b.text = c :: tail) : First b c := by
  cases b with
  | mark m =>
      cases m <;> cases split <;> constructor <;>
        first | decide | exact fun w => by cases w <;> decide
  | word w =>
      cases split
      have part : isWordPart w.first = true := (isWordPart_iff _).mpr (.inl w.letter)
      refine .of_wordPart part ?_ rfl
      simpa [isNumber, ← isDigit_iff] using w.letter.not_digit
  | whole d =>
      have digit : IsDigit c := isDigit_of_isNumber rfl split
      exact .of_wordPart ((isWordPart_iff c).mpr (.inr digit)) ((isDigit_iff c).mpr digit) rfl
  | decimal d f =>
      have digit : IsDigit c := isDigit_of_isNumber rfl split
      exact .of_wordPart ((isWordPart_iff c).mpr (.inr digit)) ((isDigit_iff c).mpr digit) rfl
  | quoted body =>
      cases split
      constructor
      · rfl
      · rfl
      · simp
      · simp
      · simp
      · exact fun w => by cases w <;> decide

/-! ## Lexemes in front of blanks and of each other -/

variable {a : Lexeme} {rest : List Char}

theorem ends_blank (a : Lexeme) (b : Blank) : a.Ends (b.char :: rest) := by
  cases a with
  | mark m => cases m <;> cases b <;> simp [Lexeme.Ends, Mark.Ends, Blank.char]
  | word w => cases b <;> simp [Lexeme.Ends, Blank.char] <;> decide
  | whole d => cases b <;> simp [Lexeme.Ends, Blank.char] <;> decide
  | decimal d f => cases b <;> simp [Lexeme.Ends, Blank.char] <;> decide
  | quoted body => trivial

/-- A whole number looks two characters ahead, beyond a point that follows it. -/
theorem whole_ends_iff (d : Digits) (b : Lexeme) :
    (whole d).Ends (b.text ++ rest) ↔
      b.isNumber = false ∧ (b = mark .dot → ∀ c ∈ rest.head?, LoxLexer.isDigit c = false) := by
  obtain ⟨c, tail, split⟩ := List.exists_cons_of_ne_nil b.text_ne_nil
  have first := first split
  rw [Lexeme.Ends, split, List.cons_append]
  refine and_congr ?_ ?_
  · simp [first.digit]
  · constructor
    · rintro point rfl
      cases split
      intro x member
      obtain ⟨more, rfl⟩ := List.head?_eq_some_iff.mp member
      exact point x more rfl
    · intro point x more eq
      obtain ⟨rfl, rest_eq⟩ := List.cons.inj eq
      obtain rfl := first.dot.mp rfl
      cases split
      exact point rfl x (by simp [show rest = x :: more from rest_eq])

/-- Every other lexeme looks at the next character only. -/
theorem ends_iff_merges (h : ∀ d, a ≠ whole d) (b : Lexeme) :
    a.Ends (b.text ++ rest) ↔ a.merges b = false := by
  obtain ⟨c, tail, split⟩ := List.exists_cons_of_ne_nil b.text_ne_nil
  have first := first split
  rw [split, List.cons_append]
  cases a with
  | mark m => cases m <;> simp [Lexeme.Ends, Mark.Ends, merges, first.equal, first.slash]
  | word w => simp [Lexeme.Ends, merges, first.wordPart]
  | whole d => exact absurd rfl (h d)
  | decimal d f => simp [Lexeme.Ends, merges, first.digit]
  | quoted body => simp [Lexeme.Ends, merges]

end Lexeme

namespace Layout

/-! ## Layouts that keep apart -/

def text (items : Layout) : List Char := items.flatMap fun (l, w) => l.text ++ blanks w

/-- Nowhere do two lexemes touch that run together, nor a whole number, a point and
a number. -/
def KeepsApart (items : Layout) : Prop :=
  (∀ a b w, [(a, []), (b, w)] <:+: items → a.merges b = false) ∧
    ∀ d n w, [(.whole d, []), (.mark .dot, []), (n, w)] <:+: items → n.isNumber = false

variable {a : Lexeme} {w : List Blank} {items : Layout}

/-- Blanks and lexemes begin with a digit only if a number comes first. -/
theorem head_not_digit_iff :
    (∀ c ∈ (blanks w ++ text items).head?, isDigit c = false) ↔
      (w = [] → ∀ n u, [(n, u)] <+: items → n.isNumber = false) := by
  cases w with
  | cons b bs => cases b <;> simp [blanks, Blank.char] <;> decide
  | nil =>
      cases items with
      | nil => simp [blanks, text]
      | cons item items =>
          obtain ⟨n, u⟩ := item
          obtain ⟨c, tail, split⟩ := List.exists_cons_of_ne_nil n.text_ne_nil
          simp [blanks, text, split, (Lexeme.first split).digit, List.cons_prefix_cons]

/-- A lexeme may end in front of the rest of its layout exactly if it does not run
together with what begins there. -/
theorem ends_iff :
    a.Ends (blanks w ++ text items) ↔
      (∀ a' b u, [(a', []), (b, u)] <+: (a, w) :: items → a'.merges b = false) ∧
        ∀ d n u, [(.whole d, []), (.mark .dot, []), (n, u)] <+: (a, w) :: items →
          n.isNumber = false := by
  cases w with
  | cons b bs => simp [blanks, a.ends_blank, List.cons_prefix_cons]
  | nil =>
      cases items with
      | nil => simp [blanks, text, a.ends_nil, List.cons_prefix_cons]
      | cons item items =>
          obtain ⟨b, v⟩ := item
          have eq : blanks [] ++ text ((b, v) :: items) = b.text ++ (blanks v ++ text items) := by
            simp [blanks, text]
          rw [eq]
          have pair : (∀ a' b' u, [(a', []), (b', u)] <+: (a, []) :: (b, v) :: items →
              a'.merges b' = false) ↔ a.merges b = false := by
            simp only [List.cons_prefix_cons, Prod.mk.injEq, List.nil_prefix, and_true]
            constructor
            · exact fun h => h a b v ⟨rfl, rfl, rfl⟩
            · rintro h _ _ _ ⟨rfl, rfl, rfl⟩
              exact h
          rw [pair]
          by_cases whole : ∃ d, a = .whole d
          · obtain ⟨d, rfl⟩ := whole
            rw [Lexeme.whole_ends_iff, head_not_digit_iff]
            refine and_congr_right fun _ => ?_
            simp only [List.cons_prefix_cons, Prod.mk.injEq, Lexeme.whole.injEq, and_true]
            constructor
            · rintro h _ n u ⟨rfl, ⟨rfl, rfl⟩, isPrefix⟩
              exact h rfl rfl n u isPrefix
            · rintro h rfl rfl n u isPrefix
              exact h d n u ⟨rfl, ⟨rfl, rfl⟩, isPrefix⟩
          · rw [Lexeme.ends_iff_merges fun d eq => whole ⟨d, eq⟩]
            refine (and_iff_left ?_).symm
            intro d n u isPrefix
            exact absurd ⟨d, (Prod.mk.inj (List.cons_prefix_cons.mp isPrefix).1).1.symm⟩ whole

theorem keepsApart_cons :
    KeepsApart ((a, w) :: items) ↔ a.Ends (blanks w ++ text items) ∧ KeepsApart items := by
  rw [ends_iff]
  simp only [KeepsApart, List.infix_cons_iff, or_imp, forall_and]
  exact and_and_and_comm

/-! ## The parts of a layout -/

def blankParts (w : List Blank) : List Part := w.map fun b => .trivia (.blank b)

def parts (items : Layout) : List Part := items.flatMap fun (l, w) => .lexeme l :: blankParts w

theorem texts_blankParts (w : List Blank) : Part.texts (blankParts w) = blanks w := by
  induction w with
  | nil => rfl
  | cons b w ih =>
      rw [blankParts, List.map_cons, Part.texts_cons]
      exact congrArg _ ih

theorem texts_parts (items : Layout) : Part.texts (parts items) = text items := by
  induction items with
  | nil => rfl
  | cons item items ih =>
      rw [parts, List.flatMap_cons, Part.texts_append, Part.texts_cons, texts_blankParts]
      exact congrArg _ ih

theorem divided_blankParts_append (w : List Blank) (others : List Part) :
    Divided (blankParts w ++ others) ↔ Divided others := by
  induction w with
  | nil => rfl
  | cons b w ih => exact (and_iff_right trivial).trans ih

/-- Lexemes keep apart exactly if each of them may end where it does. -/
theorem divided_iff_keepsApart : Divided (blankParts w ++ parts items) ↔ KeepsApart items := by
  rw [divided_blankParts_append]
  induction items with
  | nil => simp [Divided, parts, KeepsApart]
  | cons item items ih =>
      obtain ⟨a, w⟩ := item
      rw [keepsApart_cons, ← ih, parts, List.flatMap_cons, List.cons_append, Divided,
        divided_blankParts_append, Part.texts_append, texts_blankParts]
      exact and_congr_left' (by rw [← texts_parts]; rfl)

theorem isRegular_parts : ∀ p ∈ blankParts w ++ parts items, p.IsRegular := by
  simp only [blankParts, parts, List.mem_append, List.mem_map, List.mem_flatMap, List.mem_cons]
  rintro p (⟨b, -, rfl⟩ | ⟨item, -, rfl | ⟨b, -, rfl⟩⟩) <;> trivial

theorem lexemes_blankParts_append (w : List Blank) (others : List Part) :
    Part.lexemes (blankParts w ++ others) = Part.lexemes others := by
  simp [Part.lexemes, blankParts, Part.lexeme?]

theorem lexemes_parts (w : List Blank) (items : Layout) :
    Part.lexemes (blankParts w ++ parts items) = items.map Prod.fst := by
  rw [lexemes_blankParts_append]
  induction items with
  | nil => rfl
  | cons item items ih =>
      obtain ⟨l, w⟩ := item
      rw [List.map_cons, ← ih, ← lexemes_blankParts_append w (parts items)]
      rfl

/-! ## Layouts with the same blanks throughout -/

/-- Lexemes with the same blanks between any two. -/
def spaced (w : List Blank) : List Lexeme → Layout
  | [] => []
  | [l] => [(l, [])]
  | l :: m :: ls => (l, w) :: spaced w (m :: ls)

theorem map_fst_spaced (w : List Blank) (ls : List Lexeme) : (spaced w ls).map Prod.fst = ls := by
  fun_induction spaced w ls with
  | case1 => rfl
  | case2 => rfl
  | case3 l m ls ih => rw [List.map_cons, ih]

theorem keepsApart_spaced (b : Blank) (w : List Blank) (ls : List Lexeme) :
    KeepsApart (spaced (b :: w) ls) := by
  fun_induction spaced (b :: w) ls with
  | case1 => simp [KeepsApart]
  | case2 l => exact keepsApart_cons.mpr ⟨l.ends_nil, by simp [KeepsApart]⟩
  | case3 l m ls ih => exact keepsApart_cons.mpr ⟨l.ends_blank b, ih⟩

theorem text_spaced (w : List Blank) (ls : List Lexeme) :
    text (spaced w ls) = (blanks w).intercalate (ls.map Lexeme.text) := by
  fun_induction spaced w ls with
  | case1 => rfl
  | case2 l => simp [text, blanks]
  | case3 l m ls ih =>
      simp only [List.map_cons] at ih ⊢
      rw [List.intercalate_cons_cons, ← ih, text, List.flatMap_cons, ← text]

end Layout

end LoxLexer
