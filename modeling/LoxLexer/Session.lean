-- SUMMARY: Sessions: lines of input, each scanned and rendered on its own while one reporter serves all of them.
import LoxLexer.Scan
import LoxLexer.Rendering

/-!
# Sessions

In a session every line is a source of its own, with its own offsets and with line
number one. Only the reporter lives longer than a line.
-/

namespace LoxLexer

variable {σ : Type}

/-- Scans one line and renders its tokens. -/
def scanLine (reporter : Reporter σ) (format : Format) (state : σ) (line : String) :
    String × σ :=
  let (outcome, state) := scanWith reporter state line
  (render format outcome.tokens, state)

/-! ## Lines of an input -/

/-- The byte that ends a line. -/
def lineEnd : UInt8 := 10

/-- A line that was ended, without the carriage return that may precede the end. -/
def withoutReturn (line : List UInt8) : List UInt8 :=
  if line.getLast? = some 13 then line.dropLast else line

/-- The lines of an input. What follows the last line end is a line only if it is
not empty, and nothing is removed from it. -/
def inputLines (input : List UInt8) : List (List UInt8) :=
  let parts := input.splitOn lineEnd
  let unended := match parts.getLast? with
    | some last => if last = [] then [] else [last]
    | none => []
  parts.dropLast.map withoutReturn ++ unended

/-- The text with this UTF-8 encoding. -/
def decode? (bytes : List UInt8) : Option String := String.fromUTF8? bytes.toByteArray

end LoxLexer
