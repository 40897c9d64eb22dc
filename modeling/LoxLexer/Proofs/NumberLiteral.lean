-- SUMMARY: The literal of a number is the binary64 value nearest to what its lexeme says, and reading a number never fails.
import Mathlib
import LoxLexer.Proofs.NumberText
import LoxLexer.Proofs.Place
import LoxLexer.Proofs.RoundedRatio

/-!
# Literals of numbers

The lexeme of a number is a run of digits, or two of them with a point between, and says an exact
rational. The literal of the token is the binary64 value nearest to it. What is read as a number
is always a numeral, so a reader that refuses everything else does not refuse it.
-/

namespace LoxLexer

/-! ## Numerals -/

namespace Digits

variable (d f : Digits)

theorem ofDigitChars_append : Nat.ofDigitChars 10 (d.text ++ f.text) 0 =
    Nat.pow 10 f.text.length * d.value + f.value := by
  rw [Nat.ofDigitChars_append, Nat.ofDigitChars_eq_ofDigitChars_zero]
  rfl

/-- A whole number and its fraction, as a ratio. -/
theorem add_fraction : (d.value + f.value / 10 ^ f.text.length : ℚ) =
    (Nat.pow 10 f.text.length * d.value + f.value : ℕ) / (Nat.pow 10 f.text.length : ℕ) := by
  have power : ((Nat.pow 10 f.text.length : ℕ) : ℚ) = 10 ^ f.text.length := Nat.cast_pow 10 _
  rw [Nat.cast_add, Nat.cast_mul, power]
  field_simp

end Digits

namespace Numeral

/-- What a numeral says, whatever the number of its digits. -/
inductive Denotes : List Char → ℚ → Prop
  | whole (d : Digits) : Denotes d.text d.value
  | decimal (d f : Digits) :
    Denotes (d.text ++ '.' :: f.text) (d.value + f.value / 10 ^ f.text.length)

/-- Reads a numeral and refuses every other text. -/
def read? (text : List Char) : Option Numeral := do
  let (whole, rest) ← SignedDecimal.digits? text
  let (fraction, rest) ← SignedDecimal.fraction? rest
  if rest = [] then
    return ⟨Nat.ofDigitChars 10 (whole ++ fraction) 0, fraction.length⟩
  else
    none

variable {text : List Char} {q r : ℚ}

/-- A numeral says one number only. -/
theorem Denotes.unique (hq : Denotes text q) (hr : Denotes text r) : q = r := by
  generalize same : text = other at hr
  cases hq with
  | whole d =>
      cases hr with
      | whole e => rw [Digits.ext same]
      | decimal e f => exact absurd same (d.text_ne_decimal e f)
  | decimal d f =>
      cases hr with
      | whole e => exact absurd same.symm (e.text_ne_decimal d f)
      | decimal e g =>
          obtain ⟨rfl, rfl⟩ := Digits.eq_of_decimal_eq same
          rfl

/-- A numeral is not refused, and is read as the scan reads it. -/
theorem read?_of_denotes (h : Denotes text q) : read? text = some (ofText text) := by
  have nothing : NumberForm.IsEnd [] := by simp [NumberForm.IsEnd]
  cases h with
  | whole d =>
      have digits := NumberForm.digits?_append d nothing
      rw [List.append_nil] at digits
      simp [read?, digits, SignedDecimal.fraction?, d.ofText_text, Digits.value]
  | decimal d f =>
      have fraction := NumberForm.fraction?_append (some f) nothing (by simp)
      rw [List.append_nil] at fraction
      have digits := NumberForm.digits?_append d (NumberForm.isEnd_fractionText (some f) nothing)
      rw [List.append_nil] at digits
      rw [NumberForm.fractionText] at digits fraction
      simp [read?, digits, fraction, d.ofText_decimal, d.ofDigitChars_append]

end Numeral

/-! ## Rounding -/

/-- A literal is the value nearest to a rational that is not negative. -/
structure Binary64.IsRounded (x : Binary64) (q : ℚ) : Prop where
  negative : x.negative = false
  defined : x.isNaN = false
  nearest : IsNearest q x.magnitude.toNat
  zero : x.magnitude.toNat = 0 ↔ q ≤ 1 / 2 ^ 1075
  infinite : x.magnitude.toNat = Binary64.infinite ↔ 2 ^ 1024 - 2 ^ 970 ≤ q

theorem Binary64.isRounded_ofRatio (numerator : Nat) {denominator : Nat}
    (positive : 0 < denominator) :
    (ofRatio numerator denominator).IsRounded (numerator / denominator) := by
  have nearest := isNearest_nearest numerator positive
  rw [← toNat_magnitude_ofRatio] at nearest
  exact {
    negative := rfl
    defined := decide_eq_false nearest.inside.not_gt
    nearest := nearest
    zero := nearest.eq_zero_iff
    infinite := nearest.eq_infinite_iff }

/-- The lexeme of a number says one rational, and its literal is the nearest value. -/
theorem Lexeme.exists_isRounded {l : Lexeme} (kind : l.kind = .number) :
    ∃ q x, Numeral.Denotes l.text q ∧ l.literal = some (.number x) ∧ x.IsRounded q := by
  cases l with
  | mark m => cases kind
  | word w => exact absurd kind (Kind.ofWord_ne_number _)
  | quoted body => cases kind
  | whole d =>
      have rounded := Binary64.isRounded_ofRatio d.value Nat.one_pos
      rw [Nat.cast_one, div_one] at rounded
      exact ⟨_, _, .whole d, rfl, rounded⟩
  | decimal d f =>
      have parts : 0 < Nat.pow 10 f.text.length := Nat.pow_pos (by decide)
      have rounded := Binary64.isRounded_ofRatio (Nat.pow 10 f.text.length * d.value + f.value) parts
      rw [← d.add_fraction] at rounded
      exact ⟨_, _, .decimal d f, rfl, rounded⟩

/-! ## Scans -/

/-- What is read as a number is a numeral. -/
theorem Piece.denotes_of_mem_divide {source : List Char} {p : Piece} (member : p ∈ divide source)
    (number : p.shape = .number) : ∃ q, Numeral.Denotes p.text q := by
  obtain ⟨parts, divided, rfl⟩ := exists_divided source
  rw [divided.divide_texts] at member
  obtain ⟨part, -, rfl⟩ := List.mem_map.mp member
  cases part with
  | lexeme l =>
      cases l with
      | whole d => exact ⟨_, .whole d⟩
      | decimal d f => exact ⟨_, .decimal d f⟩
      | mark | word | quoted => cases number
  | trivia t =>
      cases t with
      | blank b => cases b <;> cases number
      | comment body => cases number
  | stray | unclosed => cases number

/-- What is read as a number is never refused as a numeral. Each number token has a literal, the
value nearest to the one rational that its lexeme says: positive zero up to half the least
positive value, infinity from halfway beyond the greatest finite value on. -/
theorem scan_rounds_numbers (source : String) :
    (∀ p ∈ Piece.divide source.toList, p.shape = .number →
      Numeral.read? p.text = some (Numeral.ofText p.text)) ∧
    ∀ t ∈ (scan source).tokens, t.kind = .number →
      ∃ q x, (∀ r, Numeral.Denotes t.lexeme.toList r ↔ r = q) ∧ t.literal = some (.number x) ∧
        x.IsRounded q := by
  constructor
  · intro p member number
    obtain ⟨q, denotes⟩ := Piece.denotes_of_mem_divide member number
    exact Numeral.read?_of_denotes denotes
  · intro t member number
    obtain ⟨l, same⟩ := exists_lexeme_of_mem_tokens member (by simp [number])
    obtain ⟨kind, lexeme, literal⟩ := Prod.mk.inj same |>.imp_right Prod.mk.inj
    obtain ⟨q, x, denotes, value, rounded⟩ := l.exists_isRounded (kind ▸ number)
    have text : t.lexeme.toList = l.text := by
      rw [lexeme, Lexeme.spelling, String.toList_ofList]
    refine ⟨q, x, fun r => ?_, literal.trans value, rounded⟩
    rw [text]
    constructor
    · exact fun other => other.unique denotes
    · rintro rfl
      exact denotes

/-- A number halfway between two values, whose lexeme has needless zeros. -/
theorem scan_rounds_halfway :
    ∃ t ∈ (scan "009007199254740993.0").tokens, t.kind = .number ∧
      ∃ q x, (∀ r, Numeral.Denotes t.lexeme.toList r ↔ r = q) ∧ t.literal = some (.number x) ∧
        x.IsRounded q := by
  have member : (scan "009007199254740993.0").tokens.head (by decide +kernel) ∈
      (scan "009007199254740993.0").tokens := List.head_mem _
  have number : ((scan "009007199254740993.0").tokens.head (by decide +kernel)).kind = .number := by
    decide +kernel
  exact ⟨_, member, number, (scan_rounds_numbers _).2 _ member number⟩

end LoxLexer
