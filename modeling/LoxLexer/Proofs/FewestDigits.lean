-- SUMMARY: No decimal that rounds to a magnitude has fewer digits than the one that is found for it.
import Mathlib
import LoxLexer.Number.Style
import LoxLexer.Proofs.ShortestDecimal

/-!
# Fewest digits

The decimal that is found for a magnitude is a multiple of the greatest power of ten that has one
in the rounding range. A decimal on that grid or a finer one with fewer digits would be smaller
than a power of ten that the found decimal reaches, so the range would hold that power, which is
on a coarser grid. A decimal on a coarser grid is not in the range at all.
-/

namespace LoxLexer

namespace Decimal

theorem value_lt_value {d e : Decimal} (digits : d.digits < e.digits)
    (exponent : d.exponent ≤ e.exponent) : d.value < e.value := by
  have powers : (10 : ℚ) ^ d.exponent ≤ 10 ^ e.exponent := zpow_le_zpow_right₀ (by norm_num) exponent
  exact mul_lt_mul (Nat.cast_lt.mpr digits) powers (by positivity) (by positivity)

theorem length_text_pos (d : Decimal) : 0 < d.text.length := Nat.length_toDigits_pos

/-- Fewer digits mean a smaller whole number. -/
theorem length_text_le_iff (d : Decimal) {n : Nat} (positive : 0 < n) :
    d.text.length ≤ n ↔ d.digits < 10 ^ n :=
  Nat.length_toDigits_le_iff (by decide) positive

/-- The search for a coarse grid begins high enough. -/
theorem le_log2_div {n exponent : Nat} (power : 10 ^ exponent ≤ n) : exponent ≤ n.log2 / 3 := by
  have nonzero : n ≠ 0 := Nat.ne_zero_of_lt (lt_of_lt_of_le (Nat.pow_pos (by decide)) power)
  rw [Nat.le_div_iff_mul_le (by decide), Nat.le_log2 nonzero, Nat.mul_comm, Nat.pow_mul]
  exact (Nat.pow_le_pow_left (by decide) _).trans power

/-! ## The coarsest grid -/

section Coarsest

variable {r : Range} {found digits n exponent : Nat} (ordered : r.low ≤ r.high)
  (none : ∀ coarser, found < coarser → coarser ≤ r.high.log2 / 3 → ∀ n, ¬ r.holds (n * 10 ^ coarser))

include ordered none

/-- A multiple in the range is on no coarser grid. -/
theorem Range.le_of_holds (positive : 0 < n) (held : r.holds (n * 10 ^ exponent)) :
    exponent ≤ found := by
  by_contra greater
  have below := ((holds_iff_bounds ordered).mp held).2.1
  have power : 10 ^ exponent ≤ r.high := (Nat.le_mul_of_pos_left _ positive).trans below
  exact none exponent (not_le.mp greater) (le_log2_div power) n held

/-- The multiple that is found is smaller than every power of ten on a coarser grid that is
above the lower end of the range. -/
theorem Range.lt_pow_of_holds (held : r.holds (digits * 10 ^ found)) (positive : 0 < exponent)
    (above : r.low < 10 ^ exponent * 10 ^ found) : digits < 10 ^ exponent := by
  by_contra enough
  have power := holds_of_low_lt ordered held above (Nat.mul_le_mul_right _ (not_lt.mp enough))
  rw [← Nat.pow_add, ← Nat.one_mul (10 ^ (exponent + found))] at power
  have := Range.le_of_holds ordered none Nat.one_pos power
  omega

end Coarsest

/-- No decimal that rounds to a magnitude has fewer digits than the shortest one. -/
theorem length_text_ofMagnitude_le (tie : Tie) {m : Nat} (positive : 0 < m)
    (finite : m < Binary64.infinite) {d : Decimal} (nearest : Binary64.IsNearest d.value m) :
    (ofMagnitude tie m).text.length ≤ d.text.length := by
  obtain ⟨m, rfl⟩ := Nat.exists_eq_add_one_of_ne_zero positive.ne'
  have low := Range.low_lt_value m
  have high := Range.value_lt_high (m + 1)
  have ordered := (low.trans high).le
  obtain ⟨digits, found, eq, held, none⟩ :=
    Range.coarsest_spec tie ((Range.ofMagnitude (m + 1)).high.log2 / 3) low high
  have least : 2 * (((Range.ofMagnitude (m + 1)).low : ℚ) / 10 ^ 1075) ≤ 2 * d.value := by
    rw [Range.ofMagnitude, Range.two_mul_middle]
    exact nearest.isBetween.low m rfl
  have fewest := (d.length_text_le_iff d.length_text_pos).mp le_rfl
  rw [ofMagnitude, if_neg m.succ_ne_zero]
  dsimp only
  rw [eq, length_text_le_iff _ d.length_text_pos]
  by_cases fine : d.exponent ≤ found - 1075
  · have less : d.value < value ⟨10 ^ d.text.length, found - 1075⟩ := value_lt_value fewest fine
    rw [value_grid] at less
    have above : ((Range.ofMagnitude (m + 1)).low : ℚ) < (10 ^ d.text.length * 10 ^ found : ℕ) := by
      have := lt_of_le_of_lt (le_of_mul_le_mul_left least two_pos) less
      rwa [div_lt_div_iff_of_pos_right (by positivity)] at this
    exact Range.lt_pow_of_holds ordered none held d.length_text_pos (Nat.cast_lt.mp above)
  · obtain ⟨exponent, same⟩ : ∃ exponent : ℕ, d.exponent = exponent - 1075 :=
      ⟨(d.exponent + 1075).toNat, by omega⟩
    have nonzero := digits_pos nearest positive
    have grid : d.value = (d.digits * 10 ^ exponent : ℕ) / 10 ^ 1075 := by
      rw [← value_grid, ← same]
    rw [grid, Range.isNearest_iff_holds finite] at nearest
    have := Range.le_of_holds ordered none nonzero nearest
    omega

end Decimal

end LoxLexer
