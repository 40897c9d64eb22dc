-- SUMMARY: The values of binary64 magnitudes as rationals, what it means to be the nearest of them, and that this is to lie between two midpoints.
import Mathlib
import LoxLexer.Number.Shortest

/-!
# Nearest values

The finite binary64 values grow with their magnitudes, and the place of infinity counts
as one more of them. A rational rounds to the nearest of these values, to the one with
the even magnitude if two are equally near. `IsNearest` says this about all magnitudes;
to show it, the two neighbours are enough, and between their midpoints there is only one
value that is nearest.
-/

namespace LoxLexer

namespace Binary64

/-! ## Growth -/

/-- How many units lie between a magnitude and the next one. -/
def spacing (m : Nat) : Nat := 2 ^ (m / fractions - 1)

theorem fractions_pos : 0 < fractions := by decide

section Units

variable {m e r : Nat}

/-- A subnormal magnitude is its own number of units. -/
theorem units_subnormal (parts : m / fractions = 0 ∧ m % fractions = r) : units m = r := by
  simp [units, parts.1, parts.2]

theorem units_normal (parts : m / fractions = e + 1 ∧ m % fractions = r) :
    units m = (fractions + r) * 2 ^ e := by
  simp [units, parts.1, parts.2, Nat.shiftLeft_eq]

/-- Within an exponent the fraction counts on; at its end the exponent does. -/
theorem parts_succ (m : Nat) :
    (m % fractions + 1 < fractions ∧ (m + 1) / fractions = m / fractions ∧
        (m + 1) % fractions = m % fractions + 1) ∨
      (m % fractions + 1 = fractions ∧ (m + 1) / fractions = m / fractions + 1 ∧
        (m + 1) % fractions = 0) := by
  have small := Nat.mod_lt m fractions_pos
  have split := Nat.mod_add_div m fractions
  by_cases last : m % fractions + 1 = fractions
  · refine .inr ⟨last, (Nat.div_mod_unique fractions_pos).mpr ⟨?_, fractions_pos⟩⟩
    rw [Nat.mul_add]
    omega
  · have inside : m % fractions + 1 < fractions := by omega
    refine .inl ⟨inside, (Nat.div_mod_unique fractions_pos).mpr ⟨?_, inside⟩⟩
    omega

theorem units_succ (m : Nat) : units (m + 1) = units m + spacing m := by
  rw [spacing]
  cases exponent : m / fractions with
  | zero =>
      rw [units_subnormal ⟨exponent, rfl⟩, Nat.zero_sub, Nat.pow_zero]
      rcases parts_succ m with ⟨-, parts⟩ | ⟨last, parts⟩
      · rw [exponent] at parts
        exact units_subnormal parts
      · rw [exponent] at parts
        rw [units_normal parts]
        omega
  | succ e =>
      rw [units_normal ⟨exponent, rfl⟩, Nat.add_sub_cancel]
      rcases parts_succ m with ⟨-, parts⟩ | ⟨last, parts⟩
      · rw [exponent] at parts
        rw [units_normal parts]
        ring
      · rw [exponent] at parts
        calc units (m + 1) = (fractions + 0) * 2 ^ (e + 1) := units_normal parts
          _ = (fractions + fractions) * 2 ^ e := by ring
          _ = (fractions + (m % fractions + 1)) * 2 ^ e := by rw [last]
          _ = (fractions + m % fractions) * 2 ^ e + 2 ^ e := by ring

end Units

theorem units_strictMono : StrictMono units := by
  refine strictMono_nat_of_lt_succ fun m => ?_
  rw [units_succ]
  exact Nat.lt_add_of_pos_right (Nat.two_pow_pos _)

/-! ## Values -/

/-- The value of a magnitude. -/
def value (m : Nat) : ℚ := units m / 2 ^ 1074

theorem value_strictMono : StrictMono value := by
  intro m k less
  have : (units m : ℚ) < units k := Nat.cast_lt.mpr (units_strictMono less)
  exact div_lt_div_of_pos_right this (by positivity)

/-- A rational rounds to this magnitude. The place of infinity takes part with the value that
would come next. -/
structure IsNearest (q : ℚ) (m : Nat) : Prop where
  inside : m ≤ infinite
  closest : ∀ k ≤ infinite, |q - value m| ≤ |q - value k|
  even : ∀ k ≤ infinite, k ≠ m → |q - value m| = |q - value k| → m % 2 = 0

/-- Zero is nearest to itself. -/
theorem isNearest_zero : IsNearest 0 0 := by
  have zero : value 0 = 0 := by simp [value, units]
  constructor
  · exact Nat.zero_le _
  · intro k _
    rw [zero, sub_self, abs_zero]
    exact abs_nonneg _
  · intro k _ _ _
    rfl

/-! ## Neighbours -/

section Neighbours

variable {q a b c v : ℚ}

/-- Behind the midpoint of two values the upper one is nearer than the lower one and all
below it. -/
theorem closer_to_upper (below : v ≤ a) (less : a < b) (middle : a + b ≤ 2 * q) :
    |q - b| ≤ |q - v| ∧ (|q - b| = |q - v| → a + b = 2 * q) := by
  have distance : |q - v| = q - v := abs_of_nonneg (by linarith)
  rw [distance]
  constructor
  · exact abs_le.mpr ⟨by linarith, by linarith⟩
  · intro same
    rcases abs_cases (q - b) with ⟨eq, -⟩ | ⟨eq, -⟩ <;> linarith

/-- Before the midpoint of two values the lower one is nearer than the upper one and all
above it. -/
theorem closer_to_lower (above : c ≤ v) (less : b < c) (middle : 2 * q ≤ b + c) :
    |q - b| ≤ |q - v| ∧ (|q - b| = |q - v| → 2 * q = b + c) := by
  have distance : |q - v| = v - q := by
    rw [abs_sub_comm]
    exact abs_of_nonneg (by linarith)
  rw [distance]
  constructor
  · exact abs_le.mpr ⟨by linarith, by linarith⟩
  · intro same
    rcases abs_cases (q - b) with ⟨eq, -⟩ | ⟨eq, -⟩ <;> linarith

/-- Of two values equally near, none is so near as what lies between them. -/
theorem closer_between (low : a < b) (high : b < c) (same : |q - a| = |q - c|) :
    |q - b| < |q - a| := by
  have middle : q - a = c - q := by
    rcases abs_eq_abs.mp same with eq | eq <;> linarith
  rw [abs_of_pos (show 0 < q - a by linarith)]
  exact abs_lt.mpr ⟨by linarith, by linarith⟩

end Neighbours

/-- A rational rounds to one magnitude only. -/
theorem IsNearest.not_lt {q : ℚ} {m k : Nat} (hm : IsNearest q m) (hk : IsNearest q k) :
    ¬ m < k := by
  intro less
  have same := le_antisymm (hm.closest k hk.inside) (hk.closest m hm.inside)
  have even_m := hm.even k hk.inside (Nat.ne_of_gt less) same
  have even_k := hk.even m hm.inside (Nat.ne_of_lt less) same.symm
  have next : m + 1 < k := by omega
  have nearer := closer_between (value_strictMono (Nat.lt_succ_self m)) (value_strictMono next) same
  exact absurd (hm.closest (m + 1) (by have := hk.inside; omega)) (not_le.mpr nearer)

theorem IsNearest.unique {q : ℚ} {m k : Nat} (hm : IsNearest q m) (hk : IsNearest q k) : m = k :=
  le_antisymm (Nat.le_of_not_lt (hk.not_lt hm)) (Nat.le_of_not_lt (hm.not_lt hk))

/-! ## Midpoints -/

/-- A rational lies between the midpoints around a value, of which there is none below zero and
none above infinity. It is one of them only if the magnitude is even. -/
structure IsBetween (q : ℚ) (m : Nat) : Prop where
  inside : m ≤ infinite
  low : ∀ k, k + 1 = m → value k + value m ≤ 2 * q
  even_low : ∀ k, k + 1 = m → value k + value m = 2 * q → m % 2 = 0
  high : m < infinite → 2 * q ≤ value m + value (m + 1)
  even_high : m < infinite → 2 * q = value m + value (m + 1) → m % 2 = 0

section Midpoints

variable {q : ℚ} {m k : Nat}

theorem IsNearest.isBetween (nearest : IsNearest q m) : IsBetween q m := by
  have inside := nearest.inside
  constructor
  case inside => exact inside
  case low =>
    rintro k rfl
    rcases le_total (value k + value (k + 1)) (2 * q) with above | below
    · exact above
    · obtain ⟨closer, tie⟩ := closer_to_lower le_rfl (value_strictMono k.lt_succ_self) below
      exact (tie (le_antisymm closer (nearest.closest k (by omega)))).ge
  case even_low =>
    rintro k rfl middle
    have closer := (closer_to_lower le_rfl (value_strictMono k.lt_succ_self) middle.ge).1
    have same := le_antisymm (nearest.closest k (by omega)) closer
    exact nearest.even k (by omega) (Nat.ne_of_lt k.lt_succ_self) same
  case high =>
    intro finite
    rcases le_total (2 * q) (value m + value (m + 1)) with below | above
    · exact below
    · obtain ⟨closer, tie⟩ := closer_to_upper le_rfl (value_strictMono m.lt_succ_self) above
      exact (tie (le_antisymm closer (nearest.closest (m + 1) finite))).ge
  case even_high =>
    intro finite middle
    have closer := (closer_to_upper le_rfl (value_strictMono m.lt_succ_self) middle.ge).1
    have same := le_antisymm (nearest.closest (m + 1) finite) closer
    exact nearest.even (m + 1) finite (Nat.ne_of_gt m.lt_succ_self) same

theorem IsBetween.isNearest (between : IsBetween q m) : IsNearest q m := by
  have below : ∀ k < m, |q - value m| ≤ |q - value k| ∧
      (|q - value m| = |q - value k| → m % 2 = 0) := by
    intro k less
    obtain ⟨j, rfl⟩ := Nat.exists_eq_add_one_of_ne_zero (Nat.ne_zero_of_lt less)
    obtain ⟨closer, tie⟩ := closer_to_upper (value_strictMono.monotone (Nat.le_of_lt_succ less))
      (value_strictMono j.lt_succ_self) (between.low j rfl)
    exact ⟨closer, fun same => between.even_low j rfl (tie same)⟩
  have above : ∀ k ≤ infinite, m < k → |q - value m| ≤ |q - value k| ∧
      (|q - value m| = |q - value k| → m % 2 = 0) := by
    intro k within greater
    have finite : m < infinite := by omega
    obtain ⟨closer, tie⟩ := closer_to_lower
      (value_strictMono.monotone (Nat.succ_le_of_lt greater))
      (value_strictMono m.lt_succ_self) (between.high finite)
    exact ⟨closer, fun same => between.even_high finite (tie same)⟩
  constructor
  · exact between.inside
  · intro k within
    rcases Nat.lt_trichotomy k m with less | rfl | greater
    · exact (below k less).1
    · exact le_refl _
    · exact (above k within greater).1
  · intro k within other same
    rcases Nat.lt_or_gt_of_ne other with less | greater
    · exact (below k less).2 same
    · exact (above k within greater).2 same

theorem middle_lt_middle (less : m < k) : value m + value (m + 1) < value k + value (k + 1) :=
  add_lt_add (value_strictMono less) (value_strictMono (Nat.succ_lt_succ less))

/-- Up to the midpoint above an even magnitude nothing greater is nearest. -/
theorem IsNearest.le_of_le_middle (nearest : IsNearest q m) (even : k % 2 = 0)
    (below : 2 * q ≤ value k + value (k + 1)) : m ≤ k := by
  have between := nearest.isBetween
  by_contra greater
  obtain ⟨j, rfl⟩ := Nat.exists_eq_add_one_of_ne_zero (Nat.ne_zero_of_lt (not_le.mp greater))
  have above := between.low j rfl
  rcases Nat.lt_or_ge k j with less | ge
  · exact absurd (middle_lt_middle less) (above.trans below).not_gt
  · obtain rfl : j = k := by omega
    have odd := between.even_low j rfl (le_antisymm above below)
    omega

/-- From the midpoint above an odd magnitude on, only what is greater is nearest. -/
theorem IsNearest.lt_of_middle_le (nearest : IsNearest q m) (odd : k % 2 = 1)
    (inside : k < infinite) (above : value k + value (k + 1) ≤ 2 * q) : k < m := by
  have between := nearest.isBetween
  by_contra less
  have finite : m < infinite := by omega
  have below := between.high finite
  rcases Nat.lt_or_ge m k with less | ge
  · exact absurd (middle_lt_middle less) (above.trans below).not_gt
  · obtain rfl : m = k := by omega
    have even := between.even_high finite (le_antisymm below above)
    omega

end Midpoints

end Binary64

end LoxLexer
