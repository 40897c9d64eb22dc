-- SUMMARY: Styles of writing numbers: positional and scientific notation, and the two styles the token listings use.
import LoxLexer.Number.Shortest

/-!
# Styles of numbers

A style settles what the shortest digits leave open: which of two equally short
decimals is taken, which numbers are written positionally, and whether a whole
number keeps a fraction. All other numbers are written in scientific notation.
-/

namespace LoxLexer

/-! ## Notations -/

namespace Decimal

/-- The digits of a decimal as text. -/
def text (d : Decimal) : List Char := Nat.toDigits 10 d.digits

/-- How many digits stand before the point; negative if zeros follow it first. -/
def point (d : Decimal) : Int := d.text.length + d.exponent

/-- The power of ten of the first digit. -/
def leading (d : Decimal) : Int := d.point - 1

/-- Positional notation; `whole` is appended to numbers without a fraction. -/
def positional (d : Decimal) (whole : List Char) : List Char :=
  let before := d.point.toNat
  if d.point ≤ 0 then
    '0' :: '.' :: List.replicate (-d.point).toNat '0' ++ d.text
  else if before < d.text.length then
    d.text.take before ++ '.' :: d.text.drop before
  else
    d.text ++ List.replicate (before - d.text.length) '0' ++ whole

/-- Scientific notation: one digit before the point, and a signed exponent. -/
def scientific (d : Decimal) : List Char :=
  let fraction := d.text.drop 1
  let sign := if d.leading < 0 then '-' else '+'
  d.text.take 1 ++ (if fraction = [] then [] else '.' :: fraction) ++
    'e' :: sign :: Nat.toDigits 10 d.leading.natAbs

end Decimal

/-! ## Styles -/

/-- The choices in writing a number. -/
structure NumberStyle where
  /-- Which of two equally near shortest decimals is written. -/
  tie : Decimal.Tie
  /-- Whether a number whose first digit has this power of ten is positional. -/
  isPositional : Int → Bool
  /-- What a whole number in positional notation ends in. -/
  whole : List Char

namespace NumberStyle

/-- Token listings: always positional, and whole numbers have no point. -/
def listing : NumberStyle := ⟨.up, fun _ => true, []⟩

/-- Documents: positional from `10 ^ -5` up to below `10 ^ 16`, with a fraction
in every case. -/
def document : NumberStyle := ⟨.even, fun leading => -5 ≤ leading && leading < 16, ['.', '0']⟩

end NumberStyle

namespace Binary64

/-- A finite number in a style; a number that is not finite as its name. -/
def text (style : NumberStyle) (x : Binary64) : List Char :=
  let sign := if x.negative then ['-'] else []
  if x.isNaN then
    ['N', 'a', 'N']
  else if x.isFinite then
    let decimal := Decimal.ofMagnitude style.tie x.magnitude.toNat
    sign ++
      if style.isPositional decimal.leading then decimal.positional style.whole
      else decimal.scientific
  else
    sign ++ ['i', 'n', 'f']

example : (ofRatio 1 10).text .listing = ['0', '.', '1'] := by decide +kernel

example : (ofRatio 1 100000).text .document = ['0', '.', '0', '0', '0', '0', '1'] := by
  decide +kernel

example : (ofRatio 3 2000000).text .document = ['1', '.', '5', 'e', '-', '6'] := by
  decide +kernel

example : (ofRatio 7 1).text .listing = ['7'] := by decide +kernel

example : (ofRatio 7 1).text .document = ['7', '.', '0'] := by decide +kernel

end Binary64

end LoxLexer
