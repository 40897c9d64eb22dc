-- SUMMARY: Control characters: a text with those written out that a terminal acts on.

/-!
# Control characters

Controls that would move the cursor of a terminal or change its state are written
out, so that a line of a log cannot do so. The others, line ends among them, are
left alone. In this way tracing_subscriber shows messages.
-/

namespace LoxLexer

/-- A character as it is shown in a message. Codes are in hexadecimal digits. -/
def showControl (c : Char) : List Char :=
  let code := Nat.toDigits 16 c.toNat
  if c = '\x07' || c = '\x08' || c = '\x0c' then '\\' :: 'x' :: '0' :: code
  else if c = '\x1b' || c = '\x7f' then '\\' :: 'x' :: code
  else if 0x80 ≤ c.toNat && c.toNat < 0xA0 then '\\' :: 'u' :: '{' :: code ++ ['}']
  else [c]

/-- A text with the controls of a terminal written out. -/
def showControls (text : String) : String := String.ofList (text.toList.flatMap showControl)

end LoxLexer
