-- SUMMARY: The numbers of JSON: a strict reader, the form in which documents write numbers, and the value that a number in document style has.
import LoxLexer.Proofs.Grammar
import LoxLexer.Proofs.ShortestDecimal

/-!
# Numbers in documents

A number of JSON is a whole number without needless zeros in front, then a fraction and a
power of ten, each of which may be missing. The reader knows nothing of how numbers are
written here. A `NumberForm` is what documents use of the grammar; both notations of a
decimal have such a form, and its value is the value of the decimal.
-/

namespace LoxLexer

/-- A number with its sign, which zero has as well. -/
structure SignedDecimal where
  negative : Bool
  size : Decimal
  deriving DecidableEq, Repr

/-! ## Reading -/

namespace SignedDecimal

/-- The digits that a text begins with, at least one, and what follows them. -/
def digits? (text : List Char) : Option (List Char × List Char) :=
  let run := text.takeWhile isDigit
  if run = [] then none else some (run, text.dropWhile isDigit)

/-- The digits in front of the point. A zero stands alone. -/
def whole? : List Char → Option (List Char × List Char)
  | '0' :: rest => some (['0'], rest)
  | text => digits? text

/-- The digits behind the point; none if there is no point. -/
def fraction? : List Char → Option (List Char × List Char)
  | '.' :: rest => digits? rest
  | text => some ([], text)

/-- Whether a power of ten is negative, and the text behind its sign. -/
def powerSign : List Char → Bool × List Char
  | '-' :: rest => (true, rest)
  | '+' :: rest => (false, rest)
  | text => (false, text)

/-- The power of ten at the end of a number; zero if there is none. -/
def power? : List Char → Option (Int × List Char)
  | 'e' :: rest | 'E' :: rest => do
    let (negative, rest) := powerSign rest
    let (digits, rest) ← digits? rest
    let power := Nat.ofDigitChars 10 digits 0
    return (if negative then -power else power, rest)
  | text => some (0, text)

/-- Reads a number without a sign. -/
def size? (text : List Char) : Option Decimal := do
  let (whole, rest) ← whole? text
  let (fraction, rest) ← fraction? rest
  let (power, rest) ← power? rest
  if rest = [] then
    return ⟨Nat.ofDigitChars 10 (whole ++ fraction) 0, power - fraction.length⟩
  else
    none

/-- Reads a number. -/
def read? : List Char → Option SignedDecimal
  | '-' :: rest => (size? rest).map (⟨true, ·⟩)
  | text => (size? text).map (⟨false, ·⟩)

example : read? ['-', '0', '.', '5', '0', 'E', '3'] = some ⟨true, 50, 1⟩ := by decide

example : read? ['0', '7'] = none ∧ read? ['7', '.'] = none ∧ read? ['+', '7'] = none := by decide

end SignedDecimal

/-! ## The form of numbers -/

namespace Digits

/-- The digits of a number. -/
def ofNat (n : Nat) : Digits where
  text := Nat.toDigits 10 n
  nonempty := Nat.toDigits_ne_nil
  digits c member := (isDigit_iff c).mp (Nat.isDigit_of_mem_toDigits (by decide) (by decide) member)

@[simp] theorem value_ofNat (n : Nat) : (ofNat n).value = n :=
  Nat.ofDigitChars_toDigits (by decide) (by decide)

/-- The digits of a number do not begin with a zero, unless it is zero. -/
theorem head_toDigits {n : Nat} (head : (Nat.toDigits 10 n).head? = some '0') : n = 0 := by
  induction n using Nat.strongRecOn with
  | ind n ih =>
      by_cases small : n < 10
      · simpa [Nat.toDigits_of_lt_base small] using head
      · rw [Nat.toDigits_of_base_le (by decide) (Nat.not_lt.mp small),
          List.head?_append_of_ne_nil _ Nat.toDigits_ne_nil] at head
        have := ih (n / 10) (by omega) head
        omega

end Digits

/-- A number in the form in which documents write it. -/
structure NumberForm where
  negative : Bool
  whole : Digits
  strict : whole.text.head? = some '0' → whole.text = ['0']
  fraction : Option Digits
  power : Option Int

namespace NumberForm

def fractionText : Option Digits → List Char
  | none => []
  | some digits => '.' :: digits.text

def powerText : Option Int → List Char
  | none => []
  | some power => 'e' :: (if power < 0 then '-' else '+') :: (Digits.ofNat power.natAbs).text

/-- What may stand behind digits without being one of them. -/
def IsEnd (rest : List Char) : Prop := ∀ c ∈ rest.head?, isDigit c = false

section Parts

variable {rest : List Char}

theorem isEnd_powerText (power : Option Int) : IsEnd (powerText power) := by
  cases power with
  | none => simp [IsEnd, powerText]
  | some power =>
      rintro c ⟨⟩
      decide

theorem isEnd_fractionText (fraction : Option Digits) (stop : IsEnd rest) :
    IsEnd (fractionText fraction ++ rest) := by
  cases fraction with
  | none => exact stop
  | some digits =>
      rintro c ⟨⟩
      decide

theorem digits?_append (d : Digits) (stop : IsEnd rest) :
    SignedDecimal.digits? (d.text ++ rest) = some (d.text, rest) := by
  simp only [SignedDecimal.digits?, takeWhile_run rest d.isDigit stop,
    dropWhile_run rest d.isDigit stop, if_neg d.nonempty]

theorem whole?_append (d : Digits) (strict : d.text.head? = some '0' → d.text = ['0'])
    (stop : IsEnd rest) : SignedDecimal.whole? (d.text ++ rest) = some (d.text, rest) := by
  have digits := digits?_append d stop
  unfold SignedDecimal.whole?
  split
  · next others eq =>
    obtain ⟨c, tail, text⟩ := List.exists_cons_of_ne_nil d.nonempty
    rw [text, List.cons_append, List.cons.injEq] at eq
    rw [text, eq.1] at strict
    obtain ⟨-, rfl⟩ := List.cons.inj (strict rfl)
    rw [text, eq.1, ← eq.2]
    rfl
  · exact digits

theorem fraction?_append (fraction : Option Digits) (stop : IsEnd rest)
    (noPoint : rest.head? ≠ some '.') :
    SignedDecimal.fraction? (fractionText fraction ++ rest) =
      some (fraction.elim [] Digits.text, rest) := by
  cases fraction with
  | none =>
      unfold SignedDecimal.fraction?
      split
      · next others eq => exact absurd (congrArg List.head? eq) noPoint
      · rfl
  | some digits => exact digits?_append digits stop

theorem power?_powerText (power : Option Int) :
    SignedDecimal.power? (powerText power) = some (power.getD 0, []) := by
  cases power with
  | none => rfl
  | some power =>
      have nothing : IsEnd [] := by simp [IsEnd]
      have digits := digits?_append (Digits.ofNat power.natAbs) nothing
      rw [List.append_nil] at digits
      have value := Digits.value_ofNat power.natAbs
      rw [Digits.value] at value
      by_cases negative : power < 0
      · have size : -|power| = power := by rw [abs_of_neg negative, neg_neg]
        simp [powerText, negative, SignedDecimal.power?, SignedDecimal.powerSign, digits, value,
          size]
      · have size : |power| = power := abs_of_nonneg (not_lt.mp negative)
        simp [powerText, negative, SignedDecimal.power?, SignedDecimal.powerSign, digits, value,
          size]

end Parts

variable (n : NumberForm)

def text : List Char :=
  (if n.negative then ['-'] else []) ++
    (n.whole.text ++ (fractionText n.fraction ++ powerText n.power))

/-- The digits behind the point. -/
def places : List Char := n.fraction.elim [] Digits.text

def value : SignedDecimal where
  negative := n.negative
  size :=
    ⟨Nat.ofDigitChars 10 (n.whole.text ++ n.places) 0, n.power.getD 0 - n.places.length⟩

/-- A number is read as its value. -/
theorem read?_text : SignedDecimal.read? n.text = some n.value := by
  have noPoint : (powerText n.power).head? ≠ some '.' := by
    cases n.power <;> simp [powerText]
  have power := isEnd_powerText n.power
  have size : SignedDecimal.size? (n.whole.text ++ (fractionText n.fraction ++ powerText n.power)) =
      some n.value.size := by
    simp only [SignedDecimal.size?, whole?_append _ n.strict (isEnd_fractionText n.fraction power),
      fraction?_append _ power noPoint, power?_powerText, Option.bind_eq_bind, Option.bind_some]
    rfl
  cases sign : n.negative with
  | true => simp [text, SignedDecimal.read?, value, sign, size]
  | false =>
      rw [text, sign, if_neg Bool.false_ne_true, List.nil_append]
      unfold SignedDecimal.read?
      split
      · next rest eq =>
        obtain ⟨c, tail, whole⟩ := List.exists_cons_of_ne_nil n.whole.nonempty
        rw [whole, List.cons_append, List.cons.injEq] at eq
        have digit := n.whole.isDigit c (by simp [whole])
        rw [eq.1] at digit
        exact absurd digit (by decide)
      · simp [size, value, sign]

end NumberForm

/-! ## Numbers in document style -/

namespace Digits

/-- Digits that may be missing. -/
def ofText? (text : List Char) (digits : ∀ c ∈ text, IsDigit c) : Option Digits :=
  if empty : text = [] then none else some ⟨text, empty, digits⟩

variable {text : List Char} {digits : ∀ c ∈ text, IsDigit c}

theorem fractionText_ofText? : NumberForm.fractionText (ofText? text digits) =
    if text = [] then [] else '.' :: text := by
  unfold ofText?
  split <;> rfl

theorem elim_ofText? : (ofText? text digits).elim [] Digits.text = text := by
  unfold ofText?
  split
  · next empty => exact empty.symm
  · rfl

end Digits

/-- A text behind the sign of a number has a form, and the form has this value. -/
def HasForm (negative : Bool) (written : List Char) (value : ℚ) : Prop :=
  ∃ n : NumberForm, n.text = (if negative then ['-'] else []) ++ written ∧
    n.value.negative = negative ∧ n.value.size.value = value

/-- A text behind the sign of a number has such a form without a power of ten. -/
def HasPlainForm (negative : Bool) (written : List Char) (value : ℚ) : Prop :=
  ∃ n : NumberForm, n.power = none ∧ n.text = (if negative then ['-'] else []) ++ written ∧
    n.value.negative = negative ∧ n.value.size.value = value

theorem HasPlainForm.hasForm {negative : Bool} {written : List Char} {value : ℚ}
    (h : HasPlainForm negative written value) : HasForm negative written value := by
  obtain ⟨n, -, form⟩ := h
  exact ⟨n, form⟩

namespace Decimal

variable (negative : Bool) (d : Decimal)

theorem isDigit_text : ∀ c ∈ d.text, IsDigit c := (Digits.ofNat d.digits).digits

theorem text_ne_nil : d.text ≠ [] := (Digits.ofNat d.digits).nonempty

theorem ofDigitChars_text : Nat.ofDigitChars 10 d.text 0 = d.digits :=
  Digits.value_ofNat d.digits

/-- Scientific notation: the first digit is the whole number. -/
theorem hasForm_scientific : HasForm negative d.scientific d.value := by
  obtain ⟨c, tail, text⟩ := List.exists_cons_of_ne_nil d.text_ne_nil
  have digits := d.isDigit_text
  rw [text, List.forall_mem_cons] at digits
  let n : NumberForm :=
    { negative
      whole := ⟨[c], List.cons_ne_nil _ _, List.forall_mem_singleton.mpr digits.1⟩
      strict := by simp
      fraction := Digits.ofText? tail digits.2
      power := some d.leading }
  refine ⟨n, ?_, rfl, ?_⟩
  · simp only [n, NumberForm.text, Digits.fractionText_ofText?, NumberForm.powerText, scientific,
      text]
    rfl
  · have whole : Nat.ofDigitChars 10 ([c] ++ tail) 0 = d.digits := by
      rw [← d.ofDigitChars_text, text]
      rfl
    have exponent : d.leading - tail.length = d.exponent := by
      rw [leading, point, text, List.length_cons]
      omega
    simp only [n, NumberForm.value, NumberForm.places, Digits.elim_ofText?, whole, Option.getD_some,
      exponent]

theorem digits_eq_zero_of_head (head : d.text.head? = some '0') : d.digits = 0 :=
  Digits.head_toDigits head

theorem text_of_digits_eq_zero (zero : d.digits = 0) : d.text = ['0'] := by
  rw [text, zero, Nat.toDigits_zero]

theorem mem_replicate_zero {n : Nat} : ∀ c ∈ List.replicate n '0', IsDigit c := by
  intro c member
  rw [List.eq_of_mem_replicate member]
  unfold IsDigit
  decide

/-- All digits stand behind the point, perhaps some zeros before them. -/
theorem hasPlainForm_fraction (small : d.point ≤ 0) :
    HasPlainForm negative ('0' :: '.' :: List.replicate (-d.point).toNat '0' ++ d.text) d.value := by
  let n : NumberForm :=
    { negative
      whole := ⟨['0'], List.cons_ne_nil _ _, mem_replicate_zero (n := 1)⟩
      strict := fun _ => rfl
      fraction := some
        { text := List.replicate (-d.point).toNat '0' ++ d.text
          nonempty := by simp [text_ne_nil]
          digits := List.forall_mem_append.mpr ⟨mem_replicate_zero, d.isDigit_text⟩ }
      power := none }
  refine ⟨n, rfl, ?_, rfl, ?_⟩
  · simp [n, NumberForm.text, NumberForm.fractionText, NumberForm.powerText]
  · have zeros : Nat.ofDigitChars 10 (['0'] ++ (List.replicate (-d.point).toNat '0' ++ d.text)) 0 =
        d.digits := by
      rw [Nat.ofDigitChars_append, Nat.ofDigitChars_append, Nat.ofDigitChars_replicate_zero]
      exact d.ofDigitChars_text
    have exponent : (0 : Int) - (List.replicate (-d.point).toNat '0' ++ d.text).length =
        d.exponent := by
      rw [List.length_append, List.length_replicate]
      unfold point at small ⊢
      omega
    simp only [n, NumberForm.value, NumberForm.places, Option.elim_some, Option.getD_none, zeros,
      exponent]

/-- The point is among the digits. -/
theorem hasPlainForm_among (some_before : 0 < d.point) (some_behind : d.point.toNat < d.text.length) :
    HasPlainForm negative (d.text.take d.point.toNat ++ '.' :: d.text.drop d.point.toNat) d.value := by
  let n : NumberForm :=
    { negative
      whole :=
        { text := d.text.take d.point.toNat
          nonempty := by simp [text_ne_nil]; omega
          digits := fun c member => d.isDigit_text c (List.mem_of_mem_take member) }
      strict := by
        intro head
        rw [List.head?_take, if_neg (by omega)] at head
        rw [d.text_of_digits_eq_zero (d.digits_eq_zero_of_head head), List.length_singleton]
          at some_behind
        omega
      fraction := some
        { text := d.text.drop d.point.toNat
          nonempty := by simp; omega
          digits := fun c member => d.isDigit_text c (List.mem_of_mem_drop member) }
      power := none }
  refine ⟨n, rfl, ?_, rfl, ?_⟩
  · simp [n, NumberForm.text, NumberForm.fractionText, NumberForm.powerText]
  · have exponent : (0 : Int) - (d.text.drop d.point.toNat).length = d.exponent := by
      rw [List.length_drop]
      unfold point at *
      omega
    simp only [n, NumberForm.value, NumberForm.places, Option.elim_some, Option.getD_none,
      List.take_append_drop, ofDigitChars_text, exponent]

/-- A whole number, perhaps with zeros behind the point. -/
theorem hasPlainForm_whole (zero : d.digits = 0 → d.exponent = 0)
    (whole : d.text.length ≤ d.point.toNat) (fraction : Option Digits) {places : Nat}
    (zeros : fraction.elim [] Digits.text = List.replicate places '0') :
    HasPlainForm negative
      (d.text ++ List.replicate (d.point.toNat - d.text.length) '0' ++
        NumberForm.fractionText fraction) d.value := by
  let n : NumberForm :=
    { negative
      whole :=
        { text := d.text ++ List.replicate (d.point.toNat - d.text.length) '0'
          nonempty := by simp [text_ne_nil]
          digits := List.forall_mem_append.mpr ⟨d.isDigit_text, mem_replicate_zero⟩ }
      strict := by
        intro head
        rw [List.head?_append_of_ne_nil _ d.text_ne_nil] at head
        have digits := d.digits_eq_zero_of_head head
        simp [point, d.text_of_digits_eq_zero digits, zero digits]
      fraction
      power := none }
  refine ⟨n, rfl, ?_, rfl, ?_⟩
  · simp [n, NumberForm.text, NumberForm.powerText]
  · have exponent : d.exponent = (d.point.toNat - d.text.length : ℕ) := by
      have := List.length_pos_iff.mpr d.text_ne_nil
      unfold point at whole ⊢
      omega
    have digits : Nat.ofDigitChars 10
        (d.text ++ List.replicate (d.point.toNat - d.text.length) '0' ++
          List.replicate places '0') 0 =
          d.digits * 10 ^ (d.point.toNat - d.text.length) * 10 ^ places := by
      rw [Nat.ofDigitChars_append, Nat.ofDigitChars_append, Nat.ofDigitChars_replicate_zero,
        Nat.ofDigitChars_replicate_zero, ofDigitChars_text]
      ring
    simp only [n, NumberForm.value, NumberForm.places, zeros, Option.getD_none, digits, value,
      exponent, Nat.cast_mul, Nat.cast_pow, zpow_natCast, List.length_replicate, zero_sub, zpow_neg]
    exact mul_inv_cancel_right₀ (by positivity) _

/-- Positional notation has a form with the value of the decimal. -/
theorem hasPlainForm_positional (zero : d.digits = 0 → d.exponent = 0) (fraction : Option Digits)
    {places : Nat} (zeros : fraction.elim [] Digits.text = List.replicate places '0') :
    HasPlainForm negative (d.positional (NumberForm.fractionText fraction)) d.value := by
  unfold positional
  dsimp only
  split
  · next small => exact d.hasPlainForm_fraction negative small
  · next large =>
    split
    · next inside => exact d.hasPlainForm_among negative (not_le.mp large) inside
    · next whole => exact d.hasPlainForm_whole negative zero (not_lt.mp whole) fraction zeros

end Decimal

/-- What a number rounds to; the sign is kept, also if the number is zero. -/
structure SignedDecimal.RoundsTo (n : SignedDecimal) (x : Binary64) : Prop where
  negative : n.negative = x.negative
  nearest : Binary64.IsNearest n.size.value x.magnitude.toNat

theorem SignedDecimal.RoundsTo.unique {n : SignedDecimal} {x y : Binary64} (hx : n.RoundsTo x)
    (hy : n.RoundsTo y) : x = y := by
  obtain ⟨negative, magnitude⟩ := x
  obtain ⟨negative', magnitude'⟩ := y
  obtain rfl : negative = negative' := hx.negative.symm.trans hy.negative
  obtain rfl : magnitude = magnitude' := BitVec.eq_of_toNat_eq (hx.nearest.unique hy.nearest)
  rfl

/-- A finite number in document style is a number of JSON that rounds to it. -/
theorem Binary64.exists_form_document {x : Binary64} (finite : x.isFinite) :
    ∃ n : NumberForm, n.text = x.text .document ∧ n.value.RoundsTo x := by
  have small : x.magnitude.toNat < infinite := of_decide_eq_true finite
  have notNaN : x.isNaN = false := decide_eq_false (Nat.lt_asymm small)
  let d := Decimal.ofMagnitude .even x.magnitude.toNat
  have form : HasForm x.negative
      (if NumberStyle.document.isPositional d.leading then d.positional ['.', '0']
        else d.scientific) d.value := by
    split
    · let zeros : Digits := ⟨['0'], List.cons_ne_nil _ _, Decimal.mem_replicate_zero (n := 1)⟩
      have form := d.hasPlainForm_positional x.negative (Decimal.exponent_eq_zero small)
        (some zeros) (show zeros.text = List.replicate 1 '0' from rfl)
      exact form.hasForm
    · exact d.hasForm_scientific x.negative
  obtain ⟨n, written, negative, value⟩ := form
  refine ⟨n, ?_, negative, ?_⟩
  · simp only [written, Binary64.text, notNaN, finite, Bool.false_eq_true, if_false, if_true]
    rfl
  · rw [value]
    exact Decimal.isNearest_ofMagnitude .even small

/-- Whole numbers are written in digits only. -/
theorem exists_form_toDigits (k : Nat) :
    ∃ n : NumberForm, n.text = Nat.toDigits 10 k ∧ n.value = ⟨false, k, 0⟩ := by
  let n : NumberForm :=
    { negative := false
      whole := Digits.ofNat k
      strict := fun head => by
        rw [Digits.head_toDigits head]
        exact Nat.toDigits_zero 10
      fraction := none
      power := none }
  refine ⟨n, ?_, ?_⟩
  · simp [n, NumberForm.text, NumberForm.fractionText, NumberForm.powerText, Digits.ofNat]
  · have value := Digits.value_ofNat k
    rw [Digits.value] at value
    simp [n, NumberForm.value, NumberForm.places, value]

end LoxLexer
