-- SUMMARY: Binary64 numbers as a sign and a magnitude, their exact values in units of the least one, and rounding of ratios to the nearest.

/-!
# Binary64 numbers

A binary64 number is a sign bit and 63 further bits, its *magnitude*. Read as a
natural number, the magnitude counts the values from zero upwards: 0 is zero, 1
the least positive value `2 ^ -1074`, and `infinite` the place of infinity; what
lies above is not a number. Every finite value is a whole multiple of the least
one, so `units` gives all of them exactly, as natural numbers.

Rounding a ratio looks for the two magnitudes around it and takes the nearer one,
of two equally near ones the even one. The units of `infinite` continue the
sequence of finite values, so the rule also decides when a ratio is too large.
-/

namespace LoxLexer

/-- A binary64 number: its sign bit and its other bits. -/
structure Binary64 where
  negative : Bool
  magnitude : BitVec 63
  deriving DecidableEq, Repr, Inhabited

namespace Binary64

/-! ## Bits -/

/-- The number with these bits. -/
def ofBits (bits : BitVec 64) : Binary64 := ⟨bits.msb, bits.setWidth 63⟩

/-- The bits of a number, the sign in front. -/
def toBits (x : Binary64) : BitVec 64 := BitVec.cons x.negative x.magnitude

@[simp] theorem ofBits_toBits (x : Binary64) : ofBits x.toBits = x := by
  unfold ofBits toBits
  rw [BitVec.msb_cons, BitVec.setWidth_cons]

/-! ## Classes -/

/-- How many magnitudes share an exponent: one for each fraction of 52 bits. -/
def fractions : Nat := 1 <<< 52

/-- The magnitude of infinity. -/
def infinite : Nat := 2047 * fractions

/-- Neither infinite nor undefined. -/
def isFinite (x : Binary64) : Bool := x.magnitude.toNat < infinite

/-- Not a number. -/
def isNaN (x : Binary64) : Bool := infinite < x.magnitude.toNat

/-- Equality of numbers: an undefined one equals nothing, and the two zeros are
equal. -/
def agrees (x y : Binary64) : Bool :=
  !x.isNaN && (x == y || (x.magnitude == 0 && y.magnitude == 0))

/-! ## Values -/

/-- The value of a magnitude in units of the least positive one. The exponent
doubles the spacing at each step from 2 on; at 0 and 1 the spacing is one unit. -/
def units (magnitude : Nat) : Nat :=
  let exponent := magnitude / fractions
  let fraction := magnitude % fractions
  if exponent = 0 then fraction else (fractions + fraction) <<< (exponent - 1)

/-- The last magnitude whose value is at most so many units. -/
def lastWithin (amount : Nat) : Nat :=
  let excess := amount.log2 - 52
  excess * fractions + (amount >>> excess)

/-! ## Rounding -/

/-- The magnitude nearest to a ratio; of two equally near ones the even one. -/
def nearest (numerator denominator : Nat) : Nat :=
  let amount := numerator <<< 1074
  let low := lastWithin (amount / denominator)
  if infinite ≤ low then
    infinite
  else
    let middle := (units low + units (low + 1)) * denominator
    if 2 * amount < middle then low
    else if middle < 2 * amount then low + 1
    else low + low % 2

theorem nearest_le (numerator denominator : Nat) : nearest numerator denominator ≤ infinite := by
  unfold nearest
  dsimp only
  split
  · exact Nat.le_refl _
  · split
    · omega
    · split <;> omega

/-- The number nearest to a ratio of natural numbers. -/
def ofRatio (numerator denominator : Nat) : Binary64 :=
  ⟨false, BitVec.ofNat 63 (nearest numerator denominator)⟩

theorem toNat_magnitude_ofRatio (numerator denominator : Nat) :
    (ofRatio numerator denominator).magnitude.toNat = nearest numerator denominator := by
  have small : infinite < 2 ^ 63 := by decide
  have := nearest_le numerator denominator
  rw [ofRatio, BitVec.toNat_ofNat]
  exact Nat.mod_eq_of_lt (by omega)

end Binary64

end LoxLexer
