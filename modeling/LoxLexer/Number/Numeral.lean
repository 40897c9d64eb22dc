-- SUMMARY: Unsigned decimal numerals: their digits as a whole number, the places behind the point, and the number they stand for.
import LoxLexer.Number.Binary64

/-!
# Numerals

A numeral is a run of decimal digits, or two of them with a point between. Its
exact value is a ratio: all digits read as one whole number, over the power of
ten that counts the digits behind the point.
-/

namespace LoxLexer

/-- The content of a numeral: all its digits as one whole number, and how many of
them stand behind the point. -/
structure Numeral where
  digits : Nat
  places : Nat
  deriving DecidableEq, Repr

namespace Numeral

/-- Reads a numeral; the point and the digits behind it may be missing. -/
def ofText (text : List Char) : Numeral :=
  let whole := text.takeWhile (· ≠ '.')
  let fraction := (text.dropWhile (· ≠ '.')).drop 1
  ⟨Nat.ofDigitChars 10 (whole ++ fraction) 0, fraction.length⟩

/-- The binary64 number nearest to a numeral. -/
def toBinary64 (n : Numeral) : Binary64 := Binary64.ofRatio n.digits (Nat.pow 10 n.places)

end Numeral

end LoxLexer
