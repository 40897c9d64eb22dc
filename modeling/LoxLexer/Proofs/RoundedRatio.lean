-- SUMMARY: Rounding a ratio of natural numbers gives the nearest binary64 value; which ratios give zero and which infinity.
import Mathlib
import LoxLexer.Proofs.Rounding

/-!
# Rounding of ratios

A ratio lies between the values of two magnitudes in a row, and the binary logarithm of its
amount of units finds the lower one. The nearer of the two is the nearest of all, since the
midpoints of values are where the nearest one changes.
-/

namespace LoxLexer

namespace Binary64

/-! ## The last value within an amount -/

section LastWithin

variable {amount : Nat}

/-- An amount below all normal values is its own magnitude. -/
theorem lastWithin_of_lt (small : amount < fractions) : lastWithin amount = amount := by
  have log : amount.log2 ≤ 52 := by
    by_cases zero : amount = 0
    · simp [zero]
    · exact le_of_lt ((Nat.log2_lt zero).mpr small)
  simp [lastWithin, Nat.sub_eq_zero_of_le log]

/-- The quotient of a greater amount by some power of two has as many bits as the fractions of
a normal value with the bit in front of them. -/
theorem lastWithin_of_le (large : fractions ≤ amount) :
    ∃ e r, amount / 2 ^ e = fractions + r ∧ r < fractions ∧
      lastWithin amount = r + fractions * (e + 1) := by
  have nonzero : amount ≠ 0 := Nat.ne_zero_of_lt (lt_of_lt_of_le fractions_pos large)
  obtain ⟨e, log⟩ : ∃ e, amount.log2 = e + 52 :=
    Nat.exists_eq_add_of_le' ((Nat.le_log2 nonzero).mpr large)
  have width : fractions = 2 ^ 52 := rfl
  have least : fractions ≤ amount / 2 ^ e := by
    rw [Nat.le_div_iff_mul_le (Nat.two_pow_pos e), width, ← Nat.pow_add, Nat.add_comm, ← log]
    exact Nat.log2_self_le nonzero
  have greatest : amount / 2 ^ e < 2 * fractions := by
    rw [Nat.div_lt_iff_lt_mul (Nat.two_pow_pos e), width, ← Nat.pow_succ', ← Nat.pow_add,
      show 52 + 1 + e = e + 52 + 1 by omega, ← log]
    exact Nat.lt_log2_self
  obtain ⟨r, quotient⟩ := Nat.exists_eq_add_of_le least
  refine ⟨e, r, quotient, by omega, ?_⟩
  rw [lastWithin, log, Nat.add_sub_cancel, Nat.shiftRight_eq_div_pow, quotient]
  ring

/-- An amount lies between the values of its last magnitude and of the next one. -/
theorem units_lastWithin (amount : Nat) :
    units (lastWithin amount) ≤ amount ∧ amount < units (lastWithin amount + 1) := by
  rw [units_succ]
  rcases Nat.lt_or_ge amount fractions with small | large
  · have own : units amount = amount :=
      units_subnormal ⟨Nat.div_eq_of_lt small, Nat.mod_eq_of_lt small⟩
    rw [lastWithin_of_lt small, own]
    exact ⟨le_refl _, Nat.lt_add_of_pos_right (Nat.two_pow_pos _)⟩
  · obtain ⟨e, r, quotient, inside, last⟩ := lastWithin_of_le large
    have parts := (Nat.div_mod_unique fractions_pos).mpr ⟨last.symm, inside⟩
    rw [units_normal parts, spacing, parts.1, Nat.add_sub_cancel, ← quotient]
    refine ⟨Nat.div_mul_le_self _ _, ?_⟩
    calc amount < 2 ^ e * (amount / 2 ^ e + 1) := Nat.lt_mul_div_succ _ (Nat.two_pow_pos e)
      _ = amount / 2 ^ e * 2 ^ e + 2 ^ e := by ring

end LastWithin

/-! ## The nearest value -/

section Nearest

variable {numerator denominator low a b : Nat}

/-- Midpoints and ratios have a denominator in common. -/
theorem middle_eq (positive : 0 < denominator) (a b : Nat) : value a + value b =
    ((units a + units b) * denominator : ℕ) / (2 ^ 1074 * denominator) := by
  have nonzero : (denominator : ℚ) ≠ 0 := Nat.cast_ne_zero.mpr positive.ne'
  rw [value, value, Nat.cast_mul, mul_div_mul_right _ _ nonzero, Nat.cast_add, add_div]

theorem cast_two_mul_shiftLeft (amount places : Nat) :
    ((2 * (amount <<< places) : ℕ) : ℚ) = 2 ^ places * (2 * amount) := by
  rw [Nat.shiftLeft_eq]
  push_cast
  ring

theorem double_ratio_eq (numerator denominator : Nat) :
    (2 : ℚ) * (numerator / denominator) =
      (2 * (numerator <<< 1074) : ℕ) / (2 ^ 1074 * denominator) := by
  rw [cast_two_mul_shiftLeft, mul_div_mul_left _ _ (by positivity), mul_div_assoc]

theorem middle_le_ratio_iff (positive : 0 < denominator) :
    value a + value b ≤ 2 * ((numerator : ℚ) / denominator) ↔
      (units a + units b) * denominator ≤ 2 * (numerator <<< 1074) := by
  rw [middle_eq positive, double_ratio_eq, div_le_div_iff_of_pos_right (by positivity), Nat.cast_le]

theorem ratio_le_middle_iff (positive : 0 < denominator) :
    2 * ((numerator : ℚ) / denominator) ≤ value a + value b ↔
      2 * (numerator <<< 1074) ≤ (units a + units b) * denominator := by
  rw [middle_eq positive, double_ratio_eq, div_le_div_iff_of_pos_right (by positivity), Nat.cast_le]

theorem middle_eq_ratio_iff (positive : 0 < denominator) :
    value a + value b = 2 * ((numerator : ℚ) / denominator) ↔
      (units a + units b) * denominator = 2 * (numerator <<< 1074) := by
  rw [le_antisymm_iff, middle_le_ratio_iff positive, ratio_le_middle_iff positive, le_antisymm_iff]

/-- A ratio up to the midpoint above the last value within it rounds to that value. -/
theorem isBetween_low (positive : 0 < denominator) (finite : low < infinite)
    (lower : units low * denominator ≤ numerator <<< 1074)
    (below : 2 * (numerator <<< 1074) ≤ (units low + units (low + 1)) * denominator)
    (even : 2 * (numerator <<< 1074) = (units low + units (low + 1)) * denominator → low % 2 = 0) :
    IsBetween ((numerator : ℚ) / denominator) low := by
  have above : ∀ k, k + 1 = low → (units k + units low) * denominator < 2 * (numerator <<< 1074) := by
    rintro k rfl
    have less := Nat.mul_lt_mul_of_pos_right (units_strictMono (Nat.lt_add_one k)) positive
    rw [Nat.add_mul]
    omega
  constructor
  case inside => exact le_of_lt finite
  case low => exact fun k eq => (middle_le_ratio_iff positive).mpr (above k eq).le
  case even_low =>
    intro k eq middle
    exact absurd ((middle_eq_ratio_iff positive).mp middle) (above k eq).ne
  case high => exact fun _ => (ratio_le_middle_iff positive).mpr below
  case even_high =>
    intro _ middle
    exact even ((middle_eq_ratio_iff positive).mp middle.symm).symm

/-- A ratio from that midpoint on rounds to the next value. -/
theorem isBetween_succ (positive : 0 < denominator) (finite : low < infinite)
    (upper : numerator <<< 1074 < units (low + 1) * denominator)
    (above : (units low + units (low + 1)) * denominator ≤ 2 * (numerator <<< 1074))
    (odd : (units low + units (low + 1)) * denominator = 2 * (numerator <<< 1074) → low % 2 = 1) :
    IsBetween ((numerator : ℚ) / denominator) (low + 1) := by
  have below : 2 * (numerator <<< 1074) < (units (low + 1) + units (low + 1 + 1)) * denominator := by
    have less := Nat.mul_lt_mul_of_pos_right (units_strictMono (Nat.lt_add_one (low + 1))) positive
    rw [Nat.add_mul]
    omega
  constructor
  case inside => exact finite
  case low =>
    rintro k eq
    obtain rfl := Nat.succ.inj eq
    exact (middle_le_ratio_iff positive).mpr above
  case even_low =>
    rintro k eq middle
    obtain rfl := Nat.succ.inj eq
    have := odd ((middle_eq_ratio_iff positive).mp middle)
    omega
  case high => exact fun _ => (ratio_le_middle_iff positive).mpr below.le
  case even_high =>
    intro _ middle
    exact absurd ((middle_eq_ratio_iff positive).mp middle.symm) below.ne'

/-- A ratio that reaches the place of infinity rounds to infinity. -/
theorem isBetween_infinite (positive : 0 < denominator) (beyond : infinite ≤ low)
    (lower : units low * denominator ≤ numerator <<< 1074) :
    IsBetween ((numerator : ℚ) / denominator) infinite := by
  constructor
  case inside => exact le_refl _
  case low =>
    intro k eq
    refine (middle_le_ratio_iff positive).mpr ?_
    have first := Nat.mul_le_mul_right denominator (units_strictMono.monotone (show k ≤ low by omega))
    have second := Nat.mul_le_mul_right denominator (units_strictMono.monotone beyond)
    rw [Nat.add_mul]
    omega
  case even_low => exact fun _ _ _ => by decide
  case high => exact fun less => absurd less (lt_irrefl _)
  case even_high => exact fun less => absurd less (lt_irrefl _)

/-- Rounding a ratio gives the nearest value. -/
theorem isNearest_nearest (numerator : Nat) (positive : 0 < denominator) :
    IsNearest ((numerator : ℚ) / denominator) (nearest numerator denominator) := by
  obtain ⟨within, next⟩ := units_lastWithin (numerator <<< 1074 / denominator)
  rw [Nat.le_div_iff_mul_le positive] at within
  rw [Nat.div_lt_iff_lt_mul positive] at next
  apply IsBetween.isNearest
  unfold nearest
  dsimp only
  generalize lastWithin (numerator <<< 1074 / denominator) = low at within next ⊢
  split
  · next beyond => exact isBetween_infinite positive beyond within
  · next finite =>
    rw [not_le] at finite
    split
    · next below =>
      exact isBetween_low positive finite within below.le fun middle => absurd middle below.ne
    · split
      · next above =>
        exact isBetween_succ positive finite next above.le fun middle => absurd middle above.ne
      · have middle : 2 * (numerator <<< 1074) = (units low + units (low + 1)) * denominator := by
          omega
        rcases Nat.mod_two_eq_zero_or_one low with even | odd
        · rw [even]
          exact isBetween_low positive finite within middle.le fun _ => even
        · rw [odd]
          exact isBetween_succ positive finite next middle.ge fun _ => odd

end Nearest

/-! ## Zero and infinity -/

section Ends

variable {q : ℚ} {m : Nat}

theorem middle_zero : value 0 + value 1 = 2 * (1 / 2 ^ 1075) := by
  have zero : units 0 = 0 := by decide
  have one : units 1 = 1 := by decide
  have next : (2 : ℚ) ^ 1075 = 2 * 2 ^ 1074 := pow_succ' 2 1074
  rw [value, value, zero, one, next]
  field_simp
  simp

theorem middle_infinite : value (infinite - 1) + value infinite = 2 * (2 ^ 1024 - 2 ^ 970) := by
  have sum : units (infinite - 1) + units infinite = 36028797018963966 * (2 ^ 1074 * 2 ^ 970) := by
    decide +kernel
  have greatest : (2 : ℚ) ^ 1024 = 2 ^ 54 * 2 ^ 970 := by rw [← pow_add]
  rw [value, value, ← add_div, ← Nat.cast_add, sum, greatest]
  -- The powers are too large to be evaluated, so their exponents are made variables.
  generalize (1074 : ℕ) = places
  generalize (970 : ℕ) = exponent
  push_cast
  field_simp
  norm_num

/-- Only up to half the least positive value does a rational round to zero. -/
theorem IsNearest.eq_zero_iff (nearest : IsNearest q m) : m = 0 ↔ q ≤ 1 / 2 ^ 1075 := by
  have middle := middle_zero
  generalize (1 : ℚ) / 2 ^ 1075 = threshold at middle ⊢
  constructor
  · rintro rfl
    have := nearest.isBetween.high (by decide)
    linarith
  · intro small
    exact Nat.le_zero.mp (nearest.le_of_le_middle (k := 0) rfl (by linarith))

/-- From halfway between the greatest finite value and the one that would come next, a rational
rounds to infinity. -/
theorem IsNearest.eq_infinite_iff (nearest : IsNearest q m) :
    m = infinite ↔ 2 ^ 1024 - 2 ^ 970 ≤ q := by
  have middle := middle_infinite
  have last : infinite - 1 + 1 = infinite := rfl
  generalize (2 : ℚ) ^ 1024 - 2 ^ 970 = threshold at middle ⊢
  constructor
  · rintro rfl
    have := nearest.isBetween.low _ last
    linarith
  · intro large
    have above : value (infinite - 1) + value (infinite - 1 + 1) ≤ 2 * q := by
      rw [last]
      linarith
    have greater := nearest.lt_of_middle_le (by decide) (by decide) above
    exact le_antisymm nearest.inside (by omega)

end Ends

end Binary64

end LoxLexer
