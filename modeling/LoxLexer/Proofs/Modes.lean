-- SUMMARY: An automaton with four modes that reads single characters, and that the faults of a scan are exactly those it gives.
import Mathlib.Data.List.Basic
import LoxLexer.Proofs.Lines
import LoxLexer.Proofs.Tiling

/-!
# Modes of reading

Where a source is at fault can be told one character at a time: it is enough to know
whether the characters before have opened a string or a comment, or end in a slash
that may open one. `Mode` is that knowledge. The main statement is that a scan, which
reads whole pieces and looks ahead, finds the faults that the modes give.

At the boundaries between parts the two readings agree, though the mode there need not
be `code`: a comment or a slash may have just ended. But what follows then is read as
it is in `code`, and `Mode.Meets` says so.
-/

namespace LoxLexer

/-! ## Modes -/

/-- What the characters before a place mean for the next one. -/
inductive Mode where
  | code
  /-- Behind a slash, which a second one turns into a comment. -/
  | slash
  | comment
  | string
  deriving DecidableEq, Repr

namespace Mode

/-- The mode behind one more character. -/
def next : Mode → Char → Mode
  | code, c => if c = '"' then string else if c = '/' then slash else code
  | slash, c => if c = '/' then comment else if c = '"' then string else code
  | comment, c => if c = '\n' then code else comment
  | string, c => if c = '"' then code else string

/-- The mode behind a text. -/
def after (m : Mode) (text : List Char) : Mode := text.foldl next m

/-- Whether a character that is read here may be a stray one. -/
def IsExposed (m : Mode) : Prop := m = code ∨ m = slash

instance (m : Mode) : Decidable m.IsExposed := inferInstanceAs (Decidable (_ ∨ _))

@[simp] theorem after_nil (m : Mode) : m.after [] = m := rfl

@[simp] theorem after_cons (m : Mode) (c : Char) (text : List Char) :
    m.after (c :: text) = (m.next c).after text := rfl

theorem after_append (m : Mode) (a b : List Char) : m.after (a ++ b) = (m.after a).after b :=
  List.foldl_append

end Mode

/-! ## Stray characters -/

/-- The characters that the grammar knows outside strings and comments. -/
def IsKnown (c : Char) : Prop :=
  c ∈ ['(', ')', '{', '}', ',', '.', '-', '+', ';', '*', '/', '!', '=', '<', '>', '"',
    ' ', '\t', '\r', '\n'] ∨ IsLetter c ∨ IsDigit c

instance (c : Char) : Decidable (IsKnown c) := by
  unfold IsKnown IsLetter IsDigit
  infer_instance

/-- The faults of the unknown characters in a text that are read where they are exposed. -/
def strays (m : Mode) (place : Position) : List Char → List Fault
  | [] => []
  | c :: rest =>
    let later := strays (m.next c) (place.after [c]) rest
    if m.IsExposed ∧ ¬ IsKnown c then
      { cause := .stray c, line := place.line, span := place.span [c] } :: later
    else
      later

/-- The quote that opens the string which a text leaves open: the last one that is read
outside strings. -/
structure LastOpening (text before body : List Char) : Prop where
  split : text = before ++ '"' :: body
  outside : Mode.code.after before ≠ .string
  last : ∀ mid rest, body = mid ++ '"' :: rest → Mode.code.after (before ++ '"' :: mid) = .string

/-- What the modes of a text say about an outcome. -/
structure Outcome.FollowsModes (o : Outcome) (text : List Char) : Prop where
  closed : Mode.code.after text ≠ .string → o.faults = strays .code .start text
  unclosed : Mode.code.after text = .string → ∃ before body, LastOpening text before body ∧
    o.faults = strays .code .start text ++
      [{ cause := .unclosed, line := 1 + lineBreaks text,
         span := ⟨byteLength before, byteLength ('"' :: body)⟩ }]
  hasFault : o.hasFault = false ↔ Mode.code.after text ≠ .string ∧
    ∀ before c after, text = before ++ c :: after → (Mode.code.after before).IsExposed → IsKnown c
  unique : (o.faults.filter (·.cause = .unclosed)).length ≤ 1
  last : ∀ f ∈ o.faults.dropLast, f.cause ≠ .unclosed
  tokens : ∀ f ∈ o.faults, f.cause = .unclosed →
    ∀ t ∈ o.tokens, t.kind ≠ .eof → t.span.offset < f.span.offset

theorem Mark.isKnown (m : Mark) : ∀ c ∈ m.spelling, IsKnown c := by
  cases m <;> simp [Mark.spelling, IsKnown]

/-- The first characters that begin no part are the unknown ones. -/
theorem Lead.of_eq_stray_iff (c : Char) : Lead.of c = .stray ↔ ¬ IsKnown c := by
  constructor
  · rintro stray (member | letter | digit)
    · simp only [List.mem_cons, List.not_mem_nil, or_false] at member
      rcases member with rfl | rfl | rfl | rfl | rfl | rfl | rfl | rfl | rfl | rfl | rfl | rfl |
        rfl | rfl | rfl | rfl | rfl | rfl | rfl | rfl <;> cases stray
    · rw [Lead.of_letter letter] at stray
      cases stray
    · rw [Lead.of_digit digit] at stray
      cases stray
  · intro unknown
    have fits := Lead.fits_of c
    cases lead : Lead.of c <;> rw [lead] at fits
    case single m =>
        exact absurd (m.isKnown c (by simp [Mark.spelling_of_single? fits])) unknown
    case operator short long =>
        exact absurd (short.isKnown c (by simp [(Mark.spelling_of_operator? fits).1])) unknown
    case digit => exact absurd (.inr (.inr fits)) unknown
    case wordStart => exact absurd (.inr (.inl fits)) unknown
    case blank => rcases fits with rfl | rfl | rfl <;> exact absurd (.inl (by simp)) unknown
    all_goals
      cases fits
      exact absurd (.inl (by simp)) unknown

/-! ## Texts read one character at a time -/

section Strays

variable {m : Mode} {place : Position} {text rest : List Char}

theorem strays_append (m : Mode) (place : Position) (a b : List Char) :
    strays m place (a ++ b) = strays m place a ++ strays (m.after a) (place.after a) b := by
  induction a generalizing m place with
  | nil => rfl
  | cons c a ih =>
      have reached : place.after (c :: a) = (place.after [c]).after a := Position.after_append place [c] a
      rw [List.cons_append, strays, strays, ih, Mode.after_cons, reached]
      split <;> rfl

theorem strays_eq_nil_iff : strays m place text = [] ↔
    ∀ before c after, text = before ++ c :: after → (m.after before).IsExposed → IsKnown c := by
  induction text generalizing m place with
  | nil => simp [strays]
  | cons c text ih =>
      have here : strays m place (c :: text) = [] ↔
          (m.IsExposed → IsKnown c) ∧ strays (m.next c) (place.after [c]) text = [] := by
        rw [strays]
        by_cases h : m.IsExposed ∧ ¬ IsKnown c
        · rw [if_pos h]
          simp [h]
        · rw [if_neg h]
          simp only [iff_and_self]
          exact fun _ exposed => Decidable.byContradiction fun unknown => h ⟨exposed, unknown⟩
      rw [here, ih]
      constructor
      · rintro ⟨known, others⟩ before d after split exposed
        rcases List.cons_eq_append_iff.mp split with ⟨rfl, same⟩ | ⟨before, rfl, split⟩
        · cases same
          exact known exposed
        · exact others before d after (List.cons.inj split).2 exposed
      · intro h
        exact ⟨h [] c text rfl, fun before d after split => h (c :: before) d after (by simp [split])⟩

/-- Known characters are no faults, wherever they are read. -/
theorem strays_of_known (known : ∀ c ∈ text, IsKnown c) : strays m place text = [] :=
  strays_eq_nil_iff.mpr fun _ _ _ split _ => known _ (by simp [split])

/-- Text without quotes and slashes is read in code throughout. -/
theorem Mode.after_of_plain (plain : ∀ c ∈ text, c ≠ '"' ∧ c ≠ '/') : Mode.code.after text = .code := by
  induction text with
  | nil => rfl
  | cons c text ih =>
      obtain ⟨⟨quote, slash⟩, others⟩ := List.forall_mem_cons.mp plain
      rw [Mode.after_cons, Mode.next, if_neg quote, if_neg slash, ih others]

theorem cause_of_mem_strays {f : Fault} (member : f ∈ strays m place text) : f.cause ≠ .unclosed := by
  induction text generalizing m place with
  | nil => cases member
  | cons c text ih =>
      rw [strays] at member
      split at member
      · rcases List.mem_cons.mp member with rfl | later
        · exact nofun
        · exact ih later
      · exact ih member

/-- A mode that a text does not leave, and in which nothing is exposed, hides the text. -/
theorem Mode.after_of_stays (stays : ∀ c ∈ text, m.next c = m) : m.after text = m := by
  induction text with
  | nil => rfl
  | cons c text ih =>
      obtain ⟨first, others⟩ := List.forall_mem_cons.mp stays
      rw [Mode.after_cons, first, ih others]

theorem strays_of_stays (stays : ∀ c ∈ text, m.next c = m) (hidden : ¬ m.IsExposed) :
    strays m place text = [] := by
  induction text generalizing place with
  | nil => rfl
  | cons c text ih =>
      obtain ⟨first, others⟩ := List.forall_mem_cons.mp stays
      rw [strays, first, ih others, if_neg fun h => hidden h.1]

end Strays

/-! ## Modes between parts -/

namespace Mode

/-- What may come next so that it is read as in `code`. -/
def Meets : Mode → Option Char → Prop
  | code, _ => True
  | slash, next => next ≠ some '/'
  | comment, next => ∀ c ∈ next, c = '\n'
  | string, next => next = none

variable {m : Mode} {place : Position} {text rest : List Char}

theorem Meets.next_eq {c : Char} (meets : m.Meets (some c)) : m.next c = code.next c := by
  cases m with
  | code => rfl
  | slash =>
      have : c ≠ '/' := fun eq => meets (congrArg some eq)
      simp [next, this]
  | comment =>
      cases meets c rfl
      rfl
  | string => cases meets

theorem Meets.after_eq (meets : m.Meets text.head?) (nonempty : text ≠ []) :
    m.after text = code.after text := by
  cases text with
  | nil => exact absurd rfl nonempty
  | cons c text => rw [after_cons, after_cons, meets.next_eq]

theorem Meets.strays_eq (meets : m.Meets text.head?) :
    strays m place text = strays .code place text := by
  cases text with
  | nil => rfl
  | cons c text =>
      rw [strays, strays, meets.next_eq]
      cases m with
      | code => rfl
      | slash => simp [Mode.IsExposed]
      | comment =>
          -- A comment hides its characters, but the line break behind it is known anyway.
          cases meets c rfl
          rw [if_neg (by decide), if_neg (by decide)]
      | string => cases meets

end Mode

/-! ## Reading one part -/

/-- The mode behind a part that is read in code. -/
def Part.mode : Part → Mode
  | lexeme (.mark .slash) => .slash
  | trivia (.comment _) => .comment
  | unclosed _ => .string
  | lexeme _ | trivia _ | stray _ => .code

/-- The fault of a part that is a single unknown character. -/
def Part.stray? (place : Position) : Part → Option Fault
  | stray c => (stray c).fault? place
  | lexeme _ | trivia _ | unclosed _ => none

theorem ne_of_wordPart {c : Char} (h : IsLetter c ∨ IsDigit c) : c ≠ '"' ∧ c ≠ '/' := by
  constructor <;>
    · rintro rfl
      exact absurd h (by unfold IsLetter IsDigit; decide)

theorem ne_of_unknown {c : Char} (unknown : ¬ IsKnown c) : c ≠ '"' ∧ c ≠ '/' := by
  constructor <;>
    · rintro rfl
      exact unknown (by decide)

theorem Word.plain (w : Word) : ∀ c ∈ w.first :: w.others, c ≠ '"' ∧ c ≠ '/' :=
  List.forall_mem_cons.mpr
    ⟨ne_of_wordPart (.inl w.letter), fun c member => ne_of_wordPart (w.parts c member)⟩

theorem Digits.plain (d : Digits) : ∀ c ∈ d.text, c ≠ '"' ∧ c ≠ '/' :=
  fun c member => ne_of_wordPart (.inr (d.digits c member))

theorem Word.after_text (w : Word) : Mode.code.after (w.first :: w.others) = .code :=
  Mode.after_of_plain w.plain

theorem Word.isKnown (w : Word) : ∀ c ∈ w.first :: w.others, IsKnown c :=
  List.forall_mem_cons.mpr ⟨.inr (.inl w.letter), fun c member => .inr (w.parts c member)⟩

theorem Digits.after_text (d : Digits) : Mode.code.after d.text = .code :=
  Mode.after_of_plain d.plain

theorem Digits.isKnown (d : Digits) : ∀ c ∈ d.text, IsKnown c :=
  fun c member => .inr (.inr (d.digits c member))

/-- A string without its closing quote does not leave the mode of strings. -/
theorem Mode.next_of_not_mem {body : List Char} (absent : '"' ∉ body) :
    ∀ c ∈ body, string.next c = string := by
  intro c member
  exact if_neg (by rintro rfl; exact absent member)

/-- A comment without the line break that ends it does not leave the mode of comments. -/
theorem Mode.next_of_no_newline {body : List Char} (absent : '\n' ∉ body) :
    ∀ c ∈ body, comment.next c = comment := by
  intro c member
  exact if_neg (by rintro rfl; exact absent member)

theorem Mode.after_opened {body : List Char} (absent : '"' ∉ body) :
    code.after ('"' :: body) = string :=
  after_of_stays (next_of_not_mem absent)

theorem strays_opened {body : List Char} (absent : '"' ∉ body) (place : Position) :
    strays .code place ('"' :: body) = [] := by
  rw [strays, if_neg (by decide)]
  exact strays_of_stays (Mode.next_of_not_mem absent) (by decide)

theorem Lexeme.after_text (l : Lexeme) : Mode.code.after l.text = (Part.lexeme l).mode := by
  cases l with
  | mark m => cases m <;> rfl
  | word w => exact w.after_text
  | whole d => exact d.after_text
  | decimal d f =>
      rw [Lexeme.text, Mode.after_append, d.after_text, Mode.after_cons]
      exact f.after_text
  | quoted body =>
      rw [Lexeme.text, Mode.after_append, Mode.after_opened body.absent]
      rfl

theorem Lexeme.strays_text (l : Lexeme) (place : Position) : strays .code place l.text = [] := by
  cases l with
  | mark m => exact strays_of_known m.isKnown
  | word w => exact strays_of_known w.isKnown
  | whole d => exact strays_of_known d.isKnown
  | decimal d f =>
      apply strays_of_known
      exact List.forall_mem_append.mpr
        ⟨d.isKnown, List.forall_mem_cons.mpr ⟨by decide, f.isKnown⟩⟩
  | quoted body =>
      rw [Lexeme.text, strays_append, strays_opened body.absent, Mode.after_opened body.absent]
      rfl

theorem Trivia.after_text (t : Trivia) : Mode.code.after t.text = (Part.trivia t).mode := by
  cases t with
  | blank b => cases b <;> rfl
  | comment body => exact Mode.after_of_stays (Mode.next_of_no_newline body.absent)

theorem Trivia.strays_text (t : Trivia) (place : Position) : strays .code place t.text = [] := by
  cases t with
  | blank b => cases b <;> rfl
  | comment body =>
      rw [Trivia.text, strays, strays, if_neg (by decide), if_neg (by decide)]
      exact strays_of_stays (Mode.next_of_no_newline body.absent) (by decide)

namespace Part

variable {p : Part} {parts before after : List Part} {place : Position} {rest : List Char}

theorem Ends.after_text (ends : p.Ends rest) : Mode.code.after p.text = p.mode := by
  cases p with
  | lexeme l => exact l.after_text
  | trivia t => exact t.after_text
  | stray c =>
      apply Mode.after_of_plain
      exact List.forall_mem_singleton.mpr (ne_of_unknown ((Lead.of_eq_stray_iff c).mp ends))
  | unclosed body => exact Mode.after_opened ends.1

theorem Ends.strays_text (ends : p.Ends rest) (place : Position) :
    strays .code place p.text = (p.stray? place).toList := by
  cases p with
  | lexeme l => exact l.strays_text place
  | trivia t => exact t.strays_text place
  | stray c =>
      have unknown := (Lead.of_eq_stray_iff c).mp ends
      have line : (place.after [c]).line = place.line :=
        line_after_of_not_mem (newline_not_mem_stray ends)
      rw [text, strays, strays, if_pos ⟨.inl rfl, unknown⟩, stray?, fault?, line]
      rfl
  | unclosed body => exact strays_opened ends.1 place

/-- What a part may end in front of is read as in code. -/
theorem Ends.meets (ends : p.Ends rest) : p.mode.Meets rest.head? := by
  cases p with
  | lexeme l =>
      cases l with
      | mark m => cases m <;> trivial
      | _ => trivial
  | trivia t =>
      cases t with
      | blank b => trivial
      | comment body => exact ends
  | stray c => trivial
  | unclosed body =>
      obtain ⟨-, rfl⟩ := ends
      rfl

end Part

/-! ## Reading divided parts -/

namespace Divided

variable {p : Part} {parts before after : List Part} {place : Position}

/-- What follows any of the first parts is read as in code. -/
theorem meets (divided : Divided (before ++ after)) :
    (Mode.code.after (Part.texts before)).Meets (Part.texts after).head? := by
  induction before with
  | nil => trivial
  | cons p before ih =>
      rw [List.cons_append] at divided
      obtain ⟨ends, divided⟩ := divided
      have meets := ends.meets
      rw [Part.texts_append] at meets
      rw [Part.texts_cons, Mode.after_append, ends.after_text]
      cases before with
      | nil => exact meets
      | cons q before =>
          obtain ⟨c, tail, split⟩ := List.exists_cons_of_ne_nil q.text_ne_nil
          have nonempty : Part.texts (q :: before) ≠ [] := by simp [split]
          have head : (Part.texts (q :: before) ++ Part.texts after).head? =
              (Part.texts (q :: before)).head? := by simp [split]
          rw [head] at meets
          rw [meets.after_eq nonempty]
          exact ih divided

/-- The modes expose exactly the stray parts. -/
theorem strays_texts (divided : Divided parts) (place : Position) :
    strays .code place (Part.texts parts) =
      (Part.located place parts).filterMap fun (place, p) => p.stray? place := by
  induction parts generalizing place with
  | nil => rfl
  | cons p parts ih =>
      obtain ⟨ends, divided⟩ := divided
      rw [Part.texts_cons, strays_append, ends.strays_text, ends.after_text,
        ends.meets.strays_eq, ih divided, Part.filterMap_located_cons]

/-- An unclosed string is the last part. -/
theorem eq_nil_of_unclosed {body : List Char} (divided : Divided (before ++ .unclosed body :: after)) :
    '"' ∉ body ∧ after = [] := by
  obtain ⟨absent, rest⟩ := divided.right.1
  exact ⟨absent, Part.texts_eq_nil_iff.mp rest⟩

theorem after_ne_string (divided : Divided parts) (closed : ∀ body, .unclosed body ∉ parts) :
    Mode.code.after (Part.texts parts) ≠ .string := by
  induction parts with
  | nil => decide
  | cons p parts ih =>
      obtain ⟨ends, divided⟩ := divided
      simp only [List.mem_cons, not_or, forall_and] at closed
      obtain ⟨first, others⟩ := closed
      rw [Part.texts_cons, Mode.after_append, ends.after_text]
      by_cases last : Part.texts parts = []
      · rw [last, Mode.after_nil]
        unfold Part.mode
        split
        · decide
        · decide
        · exact absurd rfl (first _)
        all_goals decide
      · rw [ends.meets.after_eq last]
        exact ih divided others

end Divided

/-! ## The outcome of divided parts -/

namespace Part

variable {parts before : List Part} {body : List Char}

/-- Without an unclosed string all faults are stray parts. -/
theorem filterMap_stray? (closed : ∀ body, .unclosed body ∉ parts) (start : Position) :
    ((located start parts).filterMap fun (place, p) => p.fault? place) =
      (located start parts).filterMap fun (place, p) => p.stray? place := by
  apply List.filterMap_congr
  rintro ⟨place, p⟩ member
  cases p with
  | unclosed body =>
      obtain ⟨before, after, rfl, -⟩ := mem_located_iff.mp member
      exact absurd (by simp) (closed body)
  | _ => rfl

theorem faults_of_closed (divided : Divided parts) (closed : ∀ body, .unclosed body ∉ parts) :
    (outcome parts).faults = strays .code .start (texts parts) := by
  rw [outcome, divided.strays_texts]
  exact filterMap_stray? closed _

/-- The parts before an unclosed string are closed. -/
theorem closed_before (divided : Divided (before ++ [.unclosed body])) :
    ∀ body, .unclosed body ∉ before := by
  intro other member
  obtain ⟨first, rest, rfl⟩ := List.append_of_mem member
  rw [List.append_assoc, List.cons_append] at divided
  cases rest <;> cases divided.eq_nil_of_unclosed.2

/-- The fault of an unclosed string comes behind those of stray parts. -/
theorem faults_of_unclosed (divided : Divided (before ++ [.unclosed body])) :
    (outcome (before ++ [.unclosed body])).faults =
      strays .code .start (texts (before ++ [.unclosed body])) ++
        [{ cause := .unclosed, line := 1 + lineBreaks (texts (before ++ [.unclosed body])),
           span := ⟨byteLength (texts before), byteLength ('"' :: body)⟩ }] := by
  rw [outcome, divided.strays_texts, located_append, List.filterMap_append, List.filterMap_append,
    filterMap_stray? (closed_before divided)]
  simp [located, stray?, fault?, text, texts_append, Position.after, Position.span, Position.start,
    Nat.add_assoc]

theorem lastOpening (divided : Divided (before ++ [.unclosed body])) :
    LastOpening (texts (before ++ [.unclosed body])) (texts before) body where
  split := by simp [texts_append, text]
  outside := by
    intro opened
    have meets := divided.meets
    rw [opened] at meets
    cases meets
  last := by
    rintro mid rest rfl
    exact absurd (by simp) divided.eq_nil_of_unclosed.1

/-- The tokens of a text end before a string that is never closed. -/
theorem offset_lt_of_unclosed {t : Token} (member : t ∈ (outcome (before ++ [.unclosed body])).tokens)
    (noEof : t.kind ≠ .eof) : t.span.offset < byteLength (texts before) := by
  rw [outcome, List.mem_append, List.mem_singleton] at member
  rcases member with found | rfl
  · rw [located_append, List.filterMap_append, List.mem_append] at found
    rcases found with found | found
    · obtain ⟨first, p, rest, rfl, yields⟩ := mem_filterMap_located.mp found
      have := byteLength_text_pos p
      rw [(eq_of_token? yields).1]
      simp only [Position.span, Position.offset_start_after, texts_append, texts_cons,
        byteLength_append]
      omega
    · cases found
  · exact absurd rfl noEof

theorem followsModes_of_closed (divided : Divided parts) (closed : ∀ body, .unclosed body ∉ parts) :
    (outcome parts).FollowsModes (texts parts) := by
  have faults := faults_of_closed divided closed
  have mode := divided.after_ne_string closed
  have causes : ∀ f ∈ (outcome parts).faults, f.cause ≠ .unclosed := by
    intro f member
    exact cause_of_mem_strays (faults ▸ member)
  exact {
    closed := fun _ => faults
    unclosed := fun opened => absurd opened mode
    hasFault := by
      have none := @strays_eq_nil_iff .code .start (texts parts)
      rw [Outcome.hasFault, faults, ← none]
      simp [mode]
    unique := by
      rw [List.filter_eq_nil_iff.mpr fun f member => by simpa using causes f member]
      exact Nat.zero_le 1
    last := fun f member => causes f (List.dropLast_subset _ member)
    tokens := fun f member unclosed => absurd unclosed (causes f member) }

theorem followsModes_of_unclosed (divided : Divided (before ++ [.unclosed body])) :
    (outcome (before ++ [.unclosed body])).FollowsModes (texts (before ++ [.unclosed body])) := by
  have faults := faults_of_unclosed divided
  have mode : Mode.code.after (texts (before ++ [.unclosed body])) = .string := by
    have meets := divided.meets
    rw [texts_append, Mode.after_append, meets.after_eq (by simp [text])]
    simpa [text] using Mode.after_opened divided.eq_nil_of_unclosed.1
  exact {
    closed := fun closed => absurd mode closed
    unclosed := fun _ => ⟨_, _, lastOpening divided, faults⟩
    hasFault := by simp [Outcome.hasFault, faults, mode]
    unique := by
      rw [faults, List.filter_append, List.filter_eq_nil_iff.mpr]
      · exact Nat.le_refl 1
      · intro f member
        simpa using cause_of_mem_strays member
    last := by
      rw [faults, List.dropLast_concat]
      exact fun f member => cause_of_mem_strays member
    tokens := by
      intro f member unclosed t found noEof
      rw [faults, List.mem_append, List.mem_singleton] at member
      rcases member with stray | rfl
      · exact absurd unclosed (cause_of_mem_strays stray)
      · exact offset_lt_of_unclosed found noEof }

theorem outcome_followsModes (divided : Divided parts) :
    (outcome parts).FollowsModes (texts parts) := by
  by_cases closed : ∀ body, .unclosed body ∉ parts
  · exact followsModes_of_closed divided closed
  · simp only [not_forall, not_not] at closed
    obtain ⟨body, member⟩ := closed
    obtain ⟨before, after, rfl⟩ := List.append_of_mem member
    obtain rfl := divided.eq_nil_of_unclosed.2
    exact followsModes_of_unclosed divided

end Part

/-- The faults of a scan are those that the modes of its source give. -/
theorem scan_followsModes (source : String) : (scan source).FollowsModes source.toList := by
  obtain ⟨parts, divided, split⟩ := exists_divided source.toList
  rw [scan_eq_outcome divided split, ← split]
  exact Part.outcome_followsModes divided

end LoxLexer
