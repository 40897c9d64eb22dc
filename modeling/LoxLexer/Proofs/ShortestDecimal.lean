-- SUMMARY: The shortest decimal of a magnitude rounds back to it, and no multiple of a greater power of ten does.
import Mathlib
import LoxLexer.Proofs.Rounding

/-!
# Shortest decimals round back

The search for a shortest decimal goes from grid to grid and takes a multiple only if the
rounding range of the magnitude holds it. In multiples of `10 ^ -1075` the ends of the range
are the midpoints to the neighbouring values, so the decimal rounds to the magnitude.
-/

namespace LoxLexer

namespace Decimal

/-- The number that a decimal is. -/
def value (d : Decimal) : ℚ := d.digits * 10 ^ d.exponent

/-- Grids are counted from `10 ^ -1075` up. -/
theorem value_grid (digits grid : Nat) :
    value ⟨digits, (grid : Int) - 1075⟩ = (digits * 10 ^ grid : ℕ) / 10 ^ 1075 := by
  have ten : (10 : ℚ) ≠ 0 := by norm_num
  have finest : (10 : ℚ) ^ (1075 : ℤ) = 10 ^ 1075 := zpow_natCast 10 1075
  rw [value, zpow_sub₀ ten, zpow_natCast, finest, Nat.cast_mul, Nat.cast_pow, mul_div_assoc]
  rfl

namespace Range

theorem holds_iff {r : Range} {n : Nat} :
    r.holds n ↔ r.low < n ∧ n < r.high ∨ r.closed ∧ (n = r.low ∨ n = r.high) := by
  simp [holds]

/-- A range holds its ends only if it is closed. -/
theorem holds_iff_bounds {r : Range} {n : Nat} (ordered : r.low ≤ r.high) :
    r.holds n ↔ r.low ≤ n ∧ n ≤ r.high ∧ (n = r.low ∨ n = r.high → r.closed) := by
  rw [holds_iff]
  constructor
  · rintro (⟨low, high⟩ | ⟨closed, rfl | rfl⟩)
    · refine ⟨low.le, high.le, ?_⟩
      rintro (rfl | rfl)
      · exact absurd low (lt_irrefl _)
      · exact absurd high (lt_irrefl _)
    · exact ⟨le_refl _, ordered, fun _ => closed⟩
    · exact ⟨ordered, le_refl _, fun _ => closed⟩
  · rintro ⟨low, high, ends⟩
    by_cases atEnd : n = r.low ∨ n = r.high
    · exact .inr ⟨ends atEnd, atEnd⟩
    · exact .inl (by omega)

/-- What is taken from a grid is in the range. -/
theorem holds_of_multiple? {r : Range} {tie : Tie} {step digits : Nat}
    (found : r.multiple? tie step = some digits) : r.holds (digits * step) := by
  unfold multiple? at found
  dsimp only at found
  split at found
  · cases found
  · next below _ =>
    cases found
    exact below
  · next _ above =>
    cases found
    exact above
  · next below above =>
    split at found
    · cases found
      exact below
    · split at found
      · cases found
        exact above
      · cases tie with
        | up =>
            cases found
            exact above
        | even =>
            cases found
            rcases Nat.mod_two_eq_zero_or_one (r.value / step) with even | odd
            · rwa [even]
            · rwa [odd]

/-- What lies between the lower end and a number in the range is in the range. -/
theorem holds_of_low_lt {r : Range} {b n : Nat} (ordered : r.low ≤ r.high) (hb : r.holds b)
    (low : r.low < n) (high : n ≤ b) : r.holds n := by
  rw [holds_iff_bounds ordered] at *
  obtain ⟨-, below, last⟩ := hb
  refine ⟨low.le, high.trans below, ?_⟩
  rintro (rfl | rfl)
  · exact absurd low (lt_irrefl _)
  · exact last (.inr (le_antisymm below high))

/-- What lies between a number in the range and the upper end is in the range. -/
theorem holds_of_lt_high {r : Range} {a n : Nat} (ordered : r.low ≤ r.high) (ha : r.holds a)
    (low : a ≤ n) (high : n < r.high) : r.holds n := by
  rw [holds_iff_bounds ordered] at *
  obtain ⟨above, -, first⟩ := ha
  refine ⟨above.trans low, high.le, ?_⟩
  rintro (rfl | rfl)
  · exact first (.inl (le_antisymm low above))
  · exact absurd high (lt_irrefl _)

/-- If nothing is taken from a grid, the range holds none of its multiples. -/
theorem not_holds_of_multiple? {r : Range} {tie : Tie} {step : Nat} (low : r.low < r.value)
    (high : r.value < r.high) (positive : 0 < step) (missing : r.multiple? tie step = none)
    (n : Nat) : ¬ r.holds (n * step) := by
  intro held
  have ordered := (low.trans high).le
  have neither : ¬ r.holds (r.value / step * step) ∧ ¬ r.holds ((r.value / step + 1) * step) := by
    unfold multiple? at missing
    dsimp only at missing
    split at missing
    · next below above => simp [below, above]
    · cases missing
    · cases missing
    · split at missing
      · cases missing
      · split at missing
        · cases missing
        · cases tie <;> cases missing
  rcases Nat.lt_or_ge r.value (n * step) with above | below
  · apply neither.2
    have next : r.value < (r.value / step + 1) * step := by
      rw [Nat.mul_comm]
      exact Nat.lt_mul_div_succ _ positive
    have least : r.value / step < n := (Nat.div_lt_iff_lt_mul positive).mpr above
    exact holds_of_low_lt ordered held (low.trans next) (Nat.mul_le_mul_right _ least)
  · apply neither.1
    have greatest : n ≤ r.value / step := (Nat.le_div_iff_mul_le positive).mpr below
    exact holds_of_lt_high ordered held (Nat.mul_le_mul_right _ greatest)
      (lt_of_le_of_lt (Nat.div_mul_le_self _ _) high)

/-- The search ends with a decimal that the range holds, and on no coarser grid is there any. -/
theorem coarsest_spec {r : Range} (tie : Tie) (grid : Nat) (low : r.low < r.value)
    (high : r.value < r.high) :
    ∃ digits found : Nat, r.coarsest tie grid = ⟨digits, (found : Int) - 1075⟩ ∧
      r.holds (digits * 10 ^ found) ∧
      ∀ coarser, found < coarser → coarser ≤ grid → ∀ n, ¬ r.holds (n * 10 ^ coarser) := by
  induction grid with
  | zero =>
      refine ⟨r.value, 0, rfl, holds_iff.mpr (.inl ?_), by omega⟩
      rw [Nat.pow_zero, Nat.mul_one]
      exact ⟨low, high⟩
  | succ grid ih =>
      rw [coarsest]
      split
      · next digits found => exact ⟨digits, grid + 1, rfl, holds_of_multiple? found, by omega⟩
      · next missing =>
        obtain ⟨digits, found, eq, held, none⟩ := ih
        refine ⟨digits, found, eq, held, fun coarser greater inside n => ?_⟩
        rcases Nat.lt_or_eq_of_le inside with less | rfl
        · exact none coarser greater (Nat.le_of_lt_succ less) n
        · exact not_holds_of_multiple? low high (Nat.pow_pos (by decide)) missing n

/-! ## The range of a magnitude -/

theorem scale_pos : 0 < scale := by
  unfold scale
  generalize 1075 = n
  exact Nat.pow_pos (by decide)

theorem low_lt_value (m : Nat) : (ofMagnitude (m + 1)).low < (ofMagnitude (m + 1)).value := by
  apply Nat.mul_lt_mul_of_pos_right _ scale_pos
  exact Nat.add_lt_add_right (Binary64.units_strictMono (Nat.lt_succ_self m)) _

theorem value_lt_high (m : Nat) : (ofMagnitude m).value < (ofMagnitude m).high := by
  apply Nat.mul_lt_mul_of_pos_right _ scale_pos
  exact Nat.add_lt_add_left (Binary64.units_strictMono (Nat.lt_succ_self m)) _

/-- A number of `10 ^ -(n + 1)` that has all powers of five is a number of `2 ^ -(n + 1)`. -/
theorem two_mul_scaled (a n : Nat) :
    2 * ((a * Nat.pow 5 (n + 1) : ℕ) / 10 ^ (n + 1) : ℚ) = a / 2 ^ n := by
  have five : ((Nat.pow 5 (n + 1) : ℕ) : ℚ) = 5 ^ (n + 1) := Nat.cast_pow 5 (n + 1)
  have ten : (10 : ℚ) ^ (n + 1) = 5 ^ (n + 1) * (2 * 2 ^ n) := by
    rw [← pow_succ', ← mul_pow]
    norm_num
  rw [ten, Nat.cast_mul, five]
  field_simp

/-- The ends of a range, in multiples of `10 ^ -1075`, are midpoints of two values. -/
theorem two_mul_middle (a b : Nat) :
    2 * (((Binary64.units a + Binary64.units b) * scale : ℕ) / 10 ^ 1075 : ℚ) =
      Binary64.value a + Binary64.value b := by
  -- The powers are too large to be evaluated, so the exponent is made a variable.
  obtain ⟨n, last, next⟩ : ∃ n, 1074 = n ∧ 1075 = n + 1 := ⟨1074, rfl, rfl⟩
  unfold scale Binary64.value
  rw [last, next, two_mul_scaled, Nat.cast_add, add_div]

end Range

namespace Range

theorem two_mul_grid_le_iff (a b n : Nat) :
    2 * ((a : ℚ) / 10 ^ n) ≤ 2 * (b / 10 ^ n) ↔ a ≤ b := by
  rw [mul_le_mul_iff_right₀ two_pos, div_le_div_iff_of_pos_right (by positivity), Nat.cast_le]

theorem two_mul_grid_eq_iff (a b n : Nat) :
    2 * ((a : ℚ) / 10 ^ n) = 2 * (b / 10 ^ n) ↔ a = b := by
  rw [le_antisymm_iff, two_mul_grid_le_iff, two_mul_grid_le_iff, le_antisymm_iff]

/-- A multiple of `10 ^ -1075` rounds to a magnitude exactly if its range holds it. -/
theorem isNearest_iff_holds {m n : Nat} (finite : m + 1 < Binary64.infinite) :
    Binary64.IsNearest ((n : ℚ) / 10 ^ 1075) (m + 1) ↔ (ofMagnitude (m + 1)).holds n := by
  have ordered := ((low_lt_value m).trans (value_lt_high _)).le
  have lowest : 2 * (((ofMagnitude (m + 1)).low : ℚ) / 10 ^ 1075) = _ := two_mul_middle m (m + 1)
  have highest : 2 * (((ofMagnitude (m + 1)).high : ℚ) / 10 ^ 1075) = _ :=
    two_mul_middle (m + 1) (m + 2)
  have closed : (ofMagnitude (m + 1)).closed ↔ (m + 1) % 2 = 0 := decide_eq_true_iff
  generalize ofMagnitude (m + 1) = r at *
  rw [holds_iff_bounds ordered, closed]
  constructor
  · intro nearest
    have between := nearest.isBetween
    have above := between.low m rfl
    have below := between.high finite
    rw [← lowest, two_mul_grid_le_iff] at above
    rw [← highest, two_mul_grid_le_iff] at below
    refine ⟨above, below, ?_⟩
    rintro (eq | eq)
    · exact between.even_low m rfl (by rw [← lowest, eq])
    · exact between.even_high finite (by rw [← highest, eq])
  · rintro ⟨above, below, ends⟩
    apply Binary64.IsBetween.isNearest
    constructor
    case inside => exact finite.le
    case low =>
      rintro k eq
      obtain rfl := Nat.succ.inj eq
      rwa [← lowest, two_mul_grid_le_iff]
    case even_low =>
      rintro k eq middle
      obtain rfl := Nat.succ.inj eq
      rw [← lowest, two_mul_grid_eq_iff] at middle
      exact ends (.inl middle.symm)
    case high =>
      intro _
      rwa [← highest, two_mul_grid_le_iff]
    case even_high =>
      intro _ middle
      rw [← highest, two_mul_grid_eq_iff] at middle
      exact ends (.inr middle)

end Range

/-! ## Reading back -/

/-- The shortest decimal of a finite magnitude rounds to it. -/
theorem isNearest_ofMagnitude (tie : Tie) {m : Nat} (finite : m < Binary64.infinite) :
    Binary64.IsNearest (ofMagnitude tie m).value m := by
  cases m with
  | zero =>
      have zero : (ofMagnitude tie 0).value = 0 := by simp [ofMagnitude, value]
      rw [zero]
      exact Binary64.isNearest_zero
  | succ m =>
      obtain ⟨digits, found, eq, held, -⟩ := Range.coarsest_spec tie
        ((Range.ofMagnitude (m + 1)).high.log2 / 3) (Range.low_lt_value m) (Range.value_lt_high _)
      rw [ofMagnitude, if_neg m.succ_ne_zero]
      dsimp only
      rw [eq, value_grid]
      exact (Range.isNearest_iff_holds finite).mpr held

/-- A decimal that rounds to another magnitude than zero is not zero. -/
theorem digits_pos {d : Decimal} {m : Nat} (nearest : Binary64.IsNearest d.value m)
    (positive : 0 < m) : 0 < d.digits := by
  by_contra zero
  have value : d.value = 0 := by rw [value, Nat.le_zero.mp (not_lt.mp zero), Nat.cast_zero, zero_mul]
  rw [value] at nearest
  exact positive.ne (Binary64.isNearest_zero.unique nearest)

/-- Only zero is written with the digit zero, and its exponent is zero. -/
theorem exponent_eq_zero {tie : Tie} {m : Nat} (finite : m < Binary64.infinite)
    (digits : (ofMagnitude tie m).digits = 0) : (ofMagnitude tie m).exponent = 0 := by
  rcases Nat.eq_zero_or_pos m with rfl | positive
  · rw [ofMagnitude, if_pos rfl]
  · exact absurd digits (digits_pos (isNearest_ofMagnitude tie finite) positive).ne'

end Decimal

end LoxLexer
