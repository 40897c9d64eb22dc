-- SUMMARY: A scan told one character at a time: a cursor on the bytes of a source, and slices of the source that may be impossible.
import LoxLexer.Proofs.Bytes
import LoxLexer.Proofs.NumberLiteral

/-!
# Cursors

A scan divides its source into pieces. Here it is told in smaller steps, each of which passes one
character at most. A cursor keeps two offsets, where the lexeme at hand begins and how far it has
been read, and takes everything else it needs out of the source by such offsets. A slice of the
source is only possible between characters, so a step may fail.

The loop takes a turn for each lexeme, or blank, or whatever else there is. `InTurn` has the cursors
inside of a turn and at its end, and `AfterTurns` those at the top of the loop.
-/

namespace LoxLexer

/-! ## Slices -/

/-- The characters from an offset on, if it is between characters. -/
def charsFrom? (source : String) (offset : Nat) : Option (List Char) := do
  let first ← source.pos? ⟨offset⟩
  return (source.sliceFrom first).copy.toList

/-- The text between two offsets, if both are between characters and in order. -/
def textBetween? (source : String) (first last : Nat) : Option String := do
  let first ← source.pos? ⟨first⟩
  let last ← source.pos? ⟨last⟩
  return (← source.slice? first last).copy

section Slices

variable {source : String} {before text after : List Char}

theorem pos?_of_isValid {offset : String.Pos.Raw} (valid : offset.IsValid source) :
    source.pos? offset = some ⟨offset, valid⟩ := by
  have among : offset.isValidForSlice source.toSlice = true := by simpa using valid
  rw [String.pos?, String.Slice.pos?, dif_pos among]
  rfl

theorem pos?_of_not_isValid {offset : String.Pos.Raw} (invalid : ¬ offset.IsValid source) :
    source.pos? offset = none := by
  have among : ¬ offset.isValidForSlice source.toSlice = true := by simpa using invalid
  rw [String.pos?, String.Slice.pos?, dif_neg among]
  rfl

/-- A slice is possible exactly if its ends are between characters and in order. -/
theorem isSome_textBetween?_iff {first last : Nat} :
    (textBetween? source first last).isSome ↔ String.Pos.Raw.IsValid source ⟨first⟩ ∧
      String.Pos.Raw.IsValid source ⟨last⟩ ∧ first ≤ last := by
  by_cases hf : String.Pos.Raw.IsValid source ⟨first⟩
  · by_cases hl : String.Pos.Raw.IsValid source ⟨last⟩
    · simp only [textBetween?, pos?_of_isValid hf, pos?_of_isValid hl, hf, hl, true_and]
      by_cases ordered : first ≤ last
      · have le : String.Pos.mk _ hf ≤ String.Pos.mk _ hl := ordered
        simp [String.slice?, le, ordered]
      · have le : ¬ String.Pos.mk _ hf ≤ String.Pos.mk _ hl := ordered
        simp [String.slice?, le, ordered]
    · simp [textBetween?, pos?_of_not_isValid hl, hl]
  · simp [textBetween?, pos?_of_not_isValid hf, hf]

/-- The second byte of a character is no place for a slice to begin or to end. -/
example : textBetween? "aé" 0 2 = none ∧ textBetween? "aé" 2 3 = none := by decide

theorem isSome_charsFrom?_iff {offset : Nat} :
    (charsFrom? source offset).isSome ↔ String.Pos.Raw.IsValid source ⟨offset⟩ := by
  by_cases valid : String.Pos.Raw.IsValid source ⟨offset⟩
  · simp [charsFrom?, pos?_of_isValid valid, valid]
  · simp [charsFrom?, pos?_of_not_isValid valid, valid]

theorem charsFrom?_of_split (split : source.toList = before ++ after) :
    charsFrom? source (byteLength before) = some after := by
  have valid := isValid_of_split split
  have splits : (String.Pos.mk _ valid).Splits (String.ofList before) (String.ofList after) := by
    refine ⟨?_, String.Pos.Raw.ext (utf8ByteSize_ofList before).symm⟩
    rw [← String.ofList_append, ← split, String.ofList_toList]
  rw [charsFrom?, pos?_of_isValid valid]
  refine congrArg some ?_
  rw [splits.copy_sliceFrom_eq, String.toList_ofList]

theorem textBetween?_of_split (split : source.toList = before ++ text ++ after) :
    textBetween? source (byteLength before) (byteLength before + byteLength text) =
      some (String.ofList text) := by
  have first := isValid_of_split (split.trans (List.append_assoc ..))
  have last : String.Pos.Raw.IsValid source ⟨byteLength before + byteLength text⟩ := by
    simpa using isValid_of_split split
  have ordered : String.Pos.mk _ first ≤ String.Pos.mk _ last := Nat.le_add_right _ _
  rw [textBetween?, pos?_of_isValid first, pos?_of_isValid last]
  change (source.slice? ⟨_, first⟩ ⟨_, last⟩).bind (fun slice => some slice.copy) = _
  rw [String.slice?, dif_pos ordered, Option.bind_some, Option.some.injEq,
    ← String.toByteArray_inj, String.toByteArray_copy_slice]
  exact extract_of_split split

end Slices

/-! ## Cursors -/

/-- How far the loop has come with a lexeme. -/
inductive Stage where
  /-- At the top of the loop. -/
  | between
  /-- In front of the first character. -/
  | begun
  /-- Behind a character that may absorb a following `=`. -/
  | operator (short long : Mark)
  /-- Behind one slash. -/
  | slash
  /-- Behind two slashes at least. -/
  | comment
  /-- Behind the opening quote at least. -/
  | string
  /-- Behind both quotes. -/
  | closed
  /-- Behind a digit at least, and in front of any point. -/
  | whole
  /-- Behind the point at least. -/
  | fraction
  /-- Behind a letter at least. -/
  | word
  deriving DecidableEq, Repr

/-- A scan under way, told in offsets. -/
structure Cursor where
  /-- Where the lexeme at hand begins. -/
  start : Nat
  /-- How far the source has been read. -/
  current : Nat
  line : Nat
  tokens : List Token
  faults : List Fault
  stage : Stage
  deriving DecidableEq, Repr

namespace Cursor

/-- The cursor in front of a source. -/
def init : Cursor := ⟨0, 0, 1, [], [], .between⟩

/-- Whether nothing is left to read. -/
def AtEnd (source : String) (k : Cursor) : Prop := source.utf8ByteSize ≤ k.current

instance (source : String) (k : Cursor) : Decidable (k.AtEnd source) := Nat.decLe ..

variable (source : String) (k : Cursor)

/-! ### Looking at the source -/

/-- The next character, if any is left. -/
def peek? : Option (Option Char) := do
  return (← charsFrom? source k.current).head?

/-- The character behind the next one. -/
def peekNext? : Option (Option Char) := do
  return (← charsFrom? source k.current)[1]?

/-- What has been read of the lexeme at hand. -/
def lexeme? : Option String := textBetween? source k.start k.current

def span : Span := ⟨k.start, k.current - k.start⟩

/-! ### Moving on -/

def enter (stage : Stage) : Cursor := { k with stage }

/-- Passes a character. -/
def pass (c : Char) : Cursor := { k with current := k.current + c.utf8Size }

/-- Passes the next character, if any is left. -/
def advance (next : Option Char) : Cursor := next.elim k k.pass

def countLine : Cursor := { k with line := k.line + 1 }

/-- Ends the turn with a token. -/
def addToken (kind : Kind) (literal : Option Literal) : Option Cursor := do
  let token := ⟨kind, ← k.lexeme? source, literal, k.line, k.span⟩
  return { k with tokens := k.tokens ++ [token], stage := .between }

/-- Ends the turn with a number, if the lexeme is a numeral. -/
def addNumber : Option Cursor := do
  let numeral ← Numeral.read? (← k.lexeme? source).toList
  k.addToken source .number (some (.number numeral.toBinary64))

/-- Ends the turn with a fault. -/
def addFault (cause : Cause) : Cursor :=
  let fault : Fault := { cause, line := k.line, span := k.span }
  { k with faults := k.faults ++ [fault], stage := .between }

/-! ### Steps -/

/-- What the first character of a lexeme leads to. -/
def lead (c : Char) : Option Cursor :=
  let passed := k.pass c
  match Lead.of c with
  | .single m => passed.addToken source (.mark m) none
  | .operator short long => some (passed.enter (.operator short long))
  | .slash => some (passed.enter .slash)
  | .blank => some (passed.enter .between)
  | .newline => some (passed.countLine.enter .between)
  | .quote => some (passed.enter .string)
  | .digit => some (passed.enter .whole)
  | .wordStart => some (passed.enter .word)
  | .stray => some (passed.addFault (.stray c))

/-- One step of the loop. No step passes more than one character. -/
def step : Option Cursor := do
  match k.stage with
  | .between => return { k with start := k.current, stage := .begun }
  | .begun =>
    match ← k.peek? source with
    | none => return k.enter .between
    | some c => k.lead source c
  | .operator short long =>
    let next ← k.peek? source
    let mark := munch short long next
    let passed := if mark = long then k.advance next else k
    passed.addToken source (.mark mark) none
  | .slash =>
    let next ← k.peek? source
    if next = some '/' then return (k.advance next).enter .comment
    else k.addToken source (.mark .slash) none
  | .comment =>
    let next ← k.peek? source
    if next.any (· != '\n') then return k.advance next else return k.enter .between
  | .string =>
    let next ← k.peek? source
    if next = some '\n' then return (k.advance next).countLine
    else if next.any (· != '"') then return k.advance next
    else if k.AtEnd source then return k.addFault .unclosed
    else return (k.advance next).enter .closed
  | .closed =>
    let body ← textBetween? source (k.start + 1) (k.current - 1)
    k.addToken source .string (some (.string body))
  | .whole =>
    let next ← k.peek? source
    let second ← k.peekNext? source
    if next.any isDigit then return k.advance next
    else if next = some '.' ∧ second.any isDigit then return (k.advance next).enter .fraction
    else k.addNumber source
  | .fraction =>
    let next ← k.peek? source
    if next.any isDigit then return k.advance next else k.addNumber source
  | .word =>
    let next ← k.peek? source
    if next.any isWordPart then return k.advance next
    else k.addToken source (Kind.ofWord (← k.lexeme? source)) none

/-- What the scan comes to if the source ends here. -/
def outcome : Outcome where
  tokens := k.tokens ++ [Token.eof ⟨source.utf8ByteSize, k.line⟩]
  faults := k.faults

/-! ### Turns -/

/-- The cursors that a turn from the top of the loop comes to, the one it ends with included. -/
inductive InTurn (source : String) (a : Cursor) : Cursor → Prop
  | begin {k : Cursor} : ¬ a.AtEnd source → a.stage = .between → a.step source = some k →
    InTurn source a k
  | go {k l : Cursor} : InTurn source a k → k.stage ≠ .between → k.step source = some l →
    InTurn source a l

/-- The cursors at the top of the loop, by the number of turns before. -/
inductive AfterTurns (source : String) : Nat → Cursor → Prop
  | init : AfterTurns source 0 .init
  | turn {n : Nat} {a b : Cursor} : AfterTurns source n a → InTurn source a b →
    b.stage = .between → AfterTurns source (n + 1) b

end Cursor

end LoxLexer
