-- SUMMARY: The shortest decimal that reads back as a given binary64 value, found on the coarsest decimal grid that meets its rounding range.
import LoxLexer.Number.Binary64

/-!
# Shortest decimals

The numbers that round to a binary64 value form a range: from halfway to the value
below to halfway to the value above, both ends included exactly if the magnitude
is even. Every such end is a whole multiple of `10 ^ -1075`, so a range is three
natural numbers. A decimal with the fewest digits is a multiple, inside the range,
of the greatest power of ten that has one there: were there a shorter one on a
finer grid, a power of ten would lie between the two and hence in the range.
Of several multiples in the range the nearest one is taken.
-/

namespace LoxLexer

/-- The number `digits * 10 ^ exponent`. -/
structure Decimal where
  digits : Nat
  exponent : Int
  deriving DecidableEq, Repr

namespace Decimal

/-- Which of two equally near neighbours is taken: the greater, or the even one. -/
inductive Tie where
  | up
  | even
  deriving DecidableEq, Repr

/-! ## Rounding ranges -/

/-- The numbers that round to one value, in multiples of `10 ^ -1075`. -/
structure Range where
  low : Nat
  value : Nat
  high : Nat
  closed : Bool

namespace Range

/-- How many multiples of `10 ^ -1075` make up `2 ^ -1075`. -/
def scale : Nat := Nat.pow 5 1075

/-- The range of a magnitude other than zero. The sum of the units of two magnitudes
is their midpoint in multiples of `2 ^ -1075`. -/
def ofMagnitude (m : Nat) : Range where
  low := (Binary64.units (m - 1) + Binary64.units m) * scale
  value := (Binary64.units m + Binary64.units m) * scale
  high := (Binary64.units m + Binary64.units (m + 1)) * scale
  closed := m % 2 = 0

/-- Whether a number is in the range. -/
def holds (r : Range) (n : Nat) : Bool :=
  (r.low < n && n < r.high) || (r.closed && (n == r.low || n == r.high))

/-- The multiple of `step` in the range that is nearest to its value, as a
factor. Only the two multiples around the value need a look. -/
def multiple? (r : Range) (tie : Tie) (step : Nat) : Option Nat :=
  let below := r.value / step
  let above := below + 1
  match r.holds (below * step), r.holds (above * step) with
  | false, false => none
  | true, false => some below
  | false, true => some above
  | true, true =>
    let toBelow := r.value - below * step
    let toAbove := above * step - r.value
    if toBelow < toAbove then some below
    else if toAbove < toBelow then some above
    else match tie with
      | .up => some above
      | .even => some (below + below % 2)

/-- The decimal on the coarsest grid, from multiples of `10 ^ grid` down, that has
one in the range. On the finest grid the value itself is one. -/
def coarsest (r : Range) (tie : Tie) : Nat → Decimal
  | 0 => ⟨r.value, -1075⟩
  | grid + 1 =>
    match r.multiple? tie (Nat.pow 10 (grid + 1)) with
    | some digits => ⟨digits, (grid + 1 : Nat) - 1075⟩
    | none => r.coarsest tie grid

end Range

/-! ## The shortest decimal -/

/-- The shortest decimal that rounds to the value of a magnitude. No power of ten
up to `high` has an exponent above a third of the binary logarithm of `high`. -/
def ofMagnitude (tie : Tie) (m : Nat) : Decimal :=
  if m = 0 then
    ⟨0, 0⟩
  else
    let range := Range.ofMagnitude m
    range.coarsest tie (range.high.log2 / 3)

end Decimal

end LoxLexer
