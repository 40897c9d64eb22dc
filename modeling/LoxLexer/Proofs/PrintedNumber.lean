-- SUMMARY: A finite number is listed as a numeral with the fewest significant digits that rounds back to it, and scanning that numeral gives the number again.
import Mathlib
import LoxLexer.Proofs.FewestDigits
import LoxLexer.Proofs.NumberLiteral
import LoxLexer.Proofs.Unparse

/-!
# Printed numbers read back

In a listing a finite number is a numeral, with a minus sign in front if it is negative. The zeros
in front of its digits and behind them only place the point; the others are those of the shortest
decimal. As a numeral is also what the grammar calls a number, a printed literal can be scanned.
-/

namespace LoxLexer

/-! ## Significant digits -/

/-- The digits of a numeral without the zeros that they begin or end with. -/
def significant (text : List Char) : List Char :=
  ((text.filter isDigit).dropWhile (· = '0')).rdropWhile (· = '0')

theorem eq_replicate_of_decide (zeros : List Char) (h : ∀ c ∈ zeros, decide (c = '0') = true) :
    ∃ n, zeros = List.replicate n '0' :=
  ⟨_, List.eq_replicate_of_mem fun c member => of_decide_eq_true (h c member)⟩

/-- Around the significant digits there are only zeros. -/
theorem exists_zeros (text : List Char) : ∃ a b, text.filter isDigit =
    List.replicate a '0' ++ (significant text ++ List.replicate b '0') := by
  let digits := text.filter isDigit
  obtain ⟨a, before⟩ := eq_replicate_of_decide (digits.takeWhile (· = '0'))
    fun c member => List.mem_takeWhile_imp (p := fun c => decide (c = '0')) member
  obtain ⟨b, behind⟩ := eq_replicate_of_decide
    ((digits.dropWhile (· = '0')).rtakeWhile (· = '0'))
    fun c member => List.mem_rtakeWhile_imp (p := fun c => decide (c = '0')) member
  refine ⟨a, b, ?_⟩
  rw [← before, ← behind, significant, List.rdropWhile_append_rtakeWhile,
    List.takeWhile_append_dropWhile]

theorem rdropWhile_append_replicate (text : List Char) (n : Nat) :
    (text ++ List.replicate n '0').rdropWhile (· = '0') = text.rdropWhile (· = '0') := by
  have zeros : ∀ c ∈ List.replicate n '0', decide (c = '0') = true := by simp
  rw [List.rdropWhile, List.reverse_append, List.reverse_replicate,
    List.dropWhile_append_of_pos zeros]
  rfl

/-- Digits that stand between zeros are as many as the significant ones, or more. -/
theorem length_significant_le {text digits : List Char} {a b : Nat}
    (split : text.filter isDigit = List.replicate a '0' ++ (digits ++ List.replicate b '0')) :
    (significant text).length ≤ digits.length := by
  have zeros : ∀ n, ∀ c ∈ List.replicate n '0', decide (c = '0') = true := by simp
  rw [significant, split, List.dropWhile_append_of_pos (zeros a), List.dropWhile_append]
  split
  · have none : (List.replicate b '0').dropWhile (· = '0') = [] :=
      List.dropWhile_eq_nil_iff.mpr (zeros b)
    rw [none]
    exact Nat.zero_le _
  · rw [rdropWhile_append_replicate]
    exact (List.rdropWhile_prefix _ _).length_le.trans (List.dropWhile_suffix _).length_le

/-! ## Numerals as decimals -/

namespace Numeral

variable {text : List Char} {q : ℚ}

theorem Denotes.exists_places (h : Denotes text q) :
    ∃ places : ℕ, q = Nat.ofDigitChars 10 (text.filter isDigit) 0 / 10 ^ places := by
  cases h with
  | whole d =>
      rw [List.filter_eq_self.mpr d.isDigit]
      exact ⟨0, by rw [pow_zero, div_one]; rfl⟩
  | decimal d f =>
      have point : isDigit '.' = false := by decide
      refine ⟨f.text.length, ?_⟩
      rw [List.filter_append, List.filter_cons_of_neg (by simp [point]),
        List.filter_eq_self.mpr d.isDigit, List.filter_eq_self.mpr f.isDigit,
        d.ofDigitChars_append, d.add_fraction]
      exact congrArg _ (Nat.cast_pow 10 _)

/-- The significant digits of a numeral are those of a decimal with its value. -/
theorem Denotes.exists_decimal (h : Denotes text q) :
    ∃ d : Decimal, d.value = q ∧ d.digits = Nat.ofDigitChars 10 (significant text) 0 := by
  obtain ⟨places, rfl⟩ := h.exists_places
  obtain ⟨a, b, split⟩ := exists_zeros text
  refine ⟨⟨Nat.ofDigitChars 10 (significant text) 0, b - places⟩, ?_, rfl⟩
  rw [split, Nat.ofDigitChars_append, Nat.ofDigitChars_append, Nat.ofDigitChars_replicate_zero,
    Nat.ofDigitChars_replicate_zero, Nat.mul_zero, Decimal.value, zpow_sub₀ (by norm_num),
    zpow_natCast, zpow_natCast, Nat.cast_mul, Nat.cast_pow]
  dsimp only [Nat.cast_ofNat]
  ring

end Numeral

/-- Digits say less than the power of ten with as many zeros. -/
theorem ofDigitChars_lt {text : List Char} (digits : ∀ c ∈ text, isDigit c = true) :
    Nat.ofDigitChars 10 text 0 < 10 ^ text.length := by
  induction text with
  | nil => exact Nat.one_pos
  | cons c text ih =>
      obtain ⟨digit, others⟩ := List.forall_mem_cons.mp digits
      have first : c.toNat - '0'.toNat < 10 := by
        have := (isDigit_iff c).mp digit
        simp only [IsDigit, Char.le_def, UInt32.le_iff_toNat_le] at this
        change c.val.toNat - 48 < 10
        change 48 ≤ c.val.toNat ∧ c.val.toNat ≤ 57 at this
        omega
      rw [Nat.ofDigitChars_cons, Nat.ofDigitChars_eq_ofDigitChars_zero, Nat.mul_zero, Nat.zero_add,
        List.length_cons, Nat.pow_succ]
      have := ih others
      calc 10 ^ text.length * (c.toNat - '0'.toNat) + Nat.ofDigitChars 10 text 0
          < 10 ^ text.length * (c.toNat - '0'.toNat) + 10 ^ text.length := by omega
        _ = 10 ^ text.length * (c.toNat - '0'.toNat + 1) := by ring
        _ ≤ 10 ^ text.length * 10 := Nat.mul_le_mul_left _ first

theorem isDigit_of_mem_significant {text : List Char} :
    ∀ c ∈ significant text, isDigit c = true := by
  intro c member
  have inside := (List.dropWhile_suffix _).subset ((List.rdropWhile_prefix _ _).subset member)
  exact (List.mem_filter.mp inside).2

/-- A numeral that rounds to a magnitude has at least the digits of the shortest decimal. -/
theorem Numeral.Denotes.length_text_le {text : List Char} {q : ℚ} {m : Nat}
    (h : Numeral.Denotes text q) (tie : Decimal.Tie) (positive : 0 < m)
    (finite : m < Binary64.infinite) (nearest : Binary64.IsNearest q m) :
    (Decimal.ofMagnitude tie m).text.length ≤ (significant text).length := by
  obtain ⟨d, rfl, digits⟩ := h.exists_decimal
  have less : Nat.ofDigitChars 10 (significant text) 0 < 10 ^ (significant text).length :=
    ofDigitChars_lt isDigit_of_mem_significant
  have some : 0 < (significant text).length := by
    by_contra none
    rw [Nat.eq_zero_of_not_pos none, ← digits] at less
    have := Decimal.digits_pos nearest positive
    omega
  rw [← digits] at less
  exact (Decimal.length_text_ofMagnitude_le tie positive finite nearest).trans
    ((d.length_text_le_iff some).mpr less)

/-! ## Positional notation -/

namespace Decimal

variable (d : Decimal)

/-- Positional notation adds nothing to the digits but zeros around them. -/
theorem exists_zeros_positional : ∃ a b, (d.positional []).filter isDigit =
    List.replicate a '0' ++ (d.text ++ List.replicate b '0') := by
  have point : isDigit '.' = false := by decide
  have digits : d.text.filter isDigit = d.text :=
    List.filter_eq_self.mpr (Digits.ofNat d.digits).isDigit
  have zeros : ∀ n, (List.replicate n '0').filter isDigit = List.replicate n '0' :=
    fun n => List.filter_replicate_of_pos (by decide)
  unfold positional
  dsimp only
  split
  · exact ⟨(-d.point).toNat + 1, 0, by
      simp [point, zeros, digits, List.replicate_succ, show isDigit '0' = true by decide]⟩
  · split
    · refine ⟨0, 0, ?_⟩
      rw [List.filter_append, List.filter_cons_of_neg (by simp [point]), ← List.filter_append,
        List.take_append_drop, digits]
      simp
    · exact ⟨0, _, by rw [List.append_nil, List.filter_append, digits, zeros]; rfl⟩

theorem length_significant_positional_le :
    (significant (d.positional [])).length ≤ d.text.length := by
  obtain ⟨a, b, split⟩ := d.exists_zeros_positional
  exact length_significant_le split

end Decimal

/-- A number in plain form without a sign is a numeral. -/
theorem NumberForm.denotes {n : NumberForm} (plain : n.power = none) (positive : n.negative = false) :
    Numeral.Denotes n.text n.value.size.value := by
  have whole : n.text = n.whole.text ++ fractionText n.fraction := by
    simp [text, positive, plain, powerText]
  have exponent : n.value.size.exponent = -(n.places.length : ℤ) := by
    simp [value, plain]
  have size : n.value.size.value =
      (Nat.ofDigitChars 10 (n.whole.text ++ n.places) 0 : ℕ) / 10 ^ n.places.length := by
    rw [Decimal.value, exponent, zpow_neg, zpow_natCast, ← div_eq_mul_inv]
    rfl
  rw [whole, size, places]
  cases n.fraction with
  | none => simpa [fractionText, Digits.value] using Numeral.Denotes.whole n.whole
  | some f =>
      have power : (10 : ℚ) ^ f.text.length = (Nat.pow 10 f.text.length : ℕ) :=
        (Nat.cast_pow 10 _).symm
      rw [Option.elim_some, n.whole.ofDigitChars_append, power, ← n.whole.add_fraction]
      exact .decimal n.whole f

/-! ## Listed numbers -/

/-- What a numeral is to a number: with the sign of the number it rounds to that and to nothing
else, and no other numeral that does has fewer significant digits. -/
structure Binary64.IsShortest (x : Binary64) (numeral : List Char) : Prop where
  rounds : ∃ q, Numeral.Denotes numeral q ∧
    ∀ y : Binary64, y.negative = x.negative ∧ IsNearest q y.magnitude.toNat ↔ y = x
  fewest : ∀ other q, Numeral.Denotes other q → IsNearest q x.magnitude.toNat →
    (significant numeral).length ≤ (significant other).length

/-- The magnitude that a rational rounds to is that of one number of each sign. -/
theorem Binary64.eq_iff_isNearest {x : Binary64} {q : ℚ} (nearest : IsNearest q x.magnitude.toNat)
    (y : Binary64) : y.negative = x.negative ∧ IsNearest q y.magnitude.toNat ↔ y = x := by
  constructor
  · rintro ⟨sign, other⟩
    have magnitude := BitVec.eq_of_toNat_eq (other.unique nearest)
    cases x; cases y
    simp_all
  · rintro rfl
    exact ⟨rfl, nearest⟩

/-- A finite number is listed as a sign and a shortest numeral. -/
theorem Binary64.exists_isShortest {x : Binary64} (finite : x.isFinite) :
    ∃ numeral, x.text .listing = (if x.negative then ['-'] else []) ++ numeral ∧
      x.IsShortest numeral := by
  have small : x.magnitude.toNat < infinite := of_decide_eq_true finite
  have notNaN : x.isNaN = false := decide_eq_false (Nat.lt_asymm small)
  let d := Decimal.ofMagnitude .up x.magnitude.toNat
  obtain ⟨n, plain, text, positive, value⟩ :=
    d.hasPlainForm_positional false (Decimal.exponent_eq_zero small) none
      (show [] = List.replicate 0 '0' from rfl)
  have denotes := n.denotes plain positive
  rw [text, value] at denotes
  have nearest := Decimal.isNearest_ofMagnitude .up small
  refine ⟨d.positional [], ?_, ⟨_, denotes, eq_iff_isNearest nearest⟩, ?_⟩
  · simp only [Binary64.text, notNaN, finite, Bool.false_eq_true, if_false, if_true]
    rfl
  · intro other q spelt rounds
    rcases Nat.eq_zero_or_pos x.magnitude.toNat with zero | positive
    · have nothing : significant (d.positional []) = [] := by
        rw [show d = ⟨0, 0⟩ by simp [d, Decimal.ofMagnitude, zero]]
        decide
      rw [nothing]
      exact Nat.zero_le _
    · exact d.length_significant_positional_le.trans (spelt.length_text_le .up positive small rounds)

/-! ## Scanning what is printed -/

/-- A numeral is the text of a lexeme. -/
theorem Numeral.Denotes.exists_lexeme {text : List Char} {q : ℚ} (h : Numeral.Denotes text q) :
    ∃ l : Lexeme, l.text = text ∧ l.kind = .number := by
  cases h with
  | whole d => exact ⟨.whole d, rfl, rfl⟩
  | decimal d f => exact ⟨.decimal d f, rfl, rfl⟩

/-- A numeral that is shortest for a positive number is a source of one token, which has this
number as its literal. -/
theorem Binary64.IsShortest.scan {x : Binary64} {numeral : List Char} (h : x.IsShortest numeral)
    (positive : x.negative = false) :
    (scan (String.ofList numeral)).faults = [] ∧
      (scan (String.ofList numeral)).tokens.map Token.content =
        [(.number, String.ofList numeral, some (.number x)), (.eof, "", none)] := by
  obtain ⟨q, denotes, only⟩ := h.rounds
  obtain ⟨l, rfl, kind⟩ := denotes.exists_lexeme
  obtain ⟨r, y, spelt, literal, rounded⟩ := l.exists_isRounded kind
  obtain rfl := spelt.unique denotes
  obtain rfl := (only y).mp ⟨rounded.negative.trans positive.symm, rounded.nearest⟩
  obtain ⟨clean, contents⟩ := l.scan_spelling
  refine ⟨clean, contents.trans ?_⟩
  simp [Lexeme.content, kind, literal, Lexeme.spelling]

/-- A finite number is listed as a shortest numeral behind its sign. The literal of a number token
has no sign, and what it is listed as, scanned by itself, is one token with the same literal, which
is then listed in the same way. -/
theorem printed_numbers_read_back :
    (∀ x : Binary64, x.isFinite → ∃ numeral,
      (Literal.number x).text = (if x.negative then ['-'] else []) ++ numeral ∧
        x.IsShortest numeral) ∧
    ∀ source, ∀ t ∈ (scan source).tokens, t.kind = .number → ∀ x, t.literal = some (.number x) →
      x.isFinite →
      let printed := String.ofList (Literal.number x).text
      (scan printed).faults = [] ∧
        (scan printed).tokens.map Token.content =
          [(.number, printed, some (.number x)), (.eof, "", none)] ∧
        ∀ u ∈ (scan printed).tokens, ∀ l ∈ u.literal, String.ofList l.text = printed := by
  refine ⟨fun x => x.exists_isShortest, ?_⟩
  intro source t member number x literal finite printed
  obtain ⟨l, same⟩ := exists_lexeme_of_mem_tokens member (by simp [number])
  have kind : l.kind = .number := (congrArg Prod.fst same).symm.trans number
  have value : l.literal = some (.number x) :=
    (congrArg (fun content => content.2.2) same).symm.trans literal
  obtain ⟨q, y, -, rounds, rounded⟩ := l.exists_isRounded kind
  obtain rfl : x = y := by
    rw [value] at rounds
    exact Literal.number.inj (Option.some.inj rounds)
  obtain ⟨numeral, text, shortest⟩ := x.exists_isShortest finite
  have unsigned : printed = String.ofList numeral := by
    rw [rounded.negative] at text
    exact congrArg String.ofList text
  obtain ⟨clean, contents⟩ := shortest.scan rounded.negative
  rw [← unsigned] at clean contents
  refine ⟨clean, contents, ?_⟩
  intro u member l found
  have among := List.mem_map_of_mem (f := Token.content) member
  rw [contents] at among
  simp only [List.mem_cons, List.not_mem_nil, or_false, Token.content, Prod.mk.injEq] at among
  rcases among with ⟨-, -, same⟩ | ⟨-, -, same⟩ <;> rw [same] at found <;> cases found
  rfl

/-- A number whose lexeme has needless zeros on both sides. -/
theorem printed_numbers_read_back_tenth :
    let x := Binary64.ofRatio 10 100
    (∃ numeral, (Literal.number x).text = [] ++ numeral ∧ x.IsShortest numeral) ∧
      (∃ t ∈ (scan "00.10").tokens, t.kind = .number ∧ t.literal = some (.number x)) ∧
      let printed := String.ofList (Literal.number x).text
      (scan printed).tokens.map Token.content =
        [(.number, printed, some (.number x)), (.eof, "", none)] := by
  have member : (scan "00.10").tokens.head (by decide +kernel) ∈ (scan "00.10").tokens :=
    List.head_mem _
  have number : ((scan "00.10").tokens.head (by decide +kernel)).kind = .number := by
    decide +kernel
  have literal : ((scan "00.10").tokens.head (by decide +kernel)).literal =
      some (.number (Binary64.ofRatio 10 100)) := by
    decide +kernel
  have finite : (Binary64.ofRatio 10 100).isFinite = true := by decide +kernel
  exact ⟨printed_numbers_read_back.1 _ finite, ⟨_, member, number, literal⟩,
    (printed_numbers_read_back.2 _ _ member number _ literal finite).2.1⟩

end LoxLexer
