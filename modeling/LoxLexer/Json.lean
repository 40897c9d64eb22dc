-- SUMMARY: JSON documents with ordered fields and their indented printed form.

/-!
# JSON documents

The part of JSON that token documents are made of. Fields keep their order, and a
number is held as it is written, since its digits are chosen elsewhere. Documents
are printed with one item or field a line, two spaces deeper at each level.
-/

namespace LoxLexer

/-- A JSON value. -/
inductive Json where
  | null
  /-- A number in its written form. -/
  | number (written : List Char)
  | string (text : String)
  | array (items : List Json)
  | object (fields : List (String × Json))
  deriving Repr

namespace Json

/-- A whole number. -/
def ofNat (n : Nat) : Json := number (Nat.toDigits 10 n)

/-! ## Strings -/

/-- A character inside a string: quotes, backslashes and control characters are
escaped, everything else stands for itself. -/
def escape (c : Char) : List Char :=
  if c = '"' then ['\\', '"']
  else if c = '\\' then ['\\', '\\']
  else if c = '\x08' then ['\\', 'b']
  else if c = '\t' then ['\\', 't']
  else if c = '\n' then ['\\', 'n']
  else if c = '\x0c' then ['\\', 'f']
  else if c = '\r' then ['\\', 'r']
  else if c.toNat < 0x20 then
    ['\\', 'u', '0', '0', Nat.digitChar (c.toNat / 16), Nat.digitChar (c.toNat % 16)]
  else [c]

/-- A string between quotes. -/
def quote (text : String) : List Char := '"' :: text.toList.flatMap escape ++ ['"']

/-! ## Layout -/

/-- A line break and the indentation of a level. -/
def lineTo (depth : Nat) : List Char := '\n' :: List.replicate (2 * depth) ' '

/-- The parts of a container at a level, each on a line of its own. An empty
container is written on one line. -/
def enclose (depth : Nat) (opening closing : Char) (parts : List (List Char)) : List Char :=
  if parts = [] then
    [opening, closing]
  else
    opening :: List.intercalate [','] (parts.map (lineTo (depth + 1) ++ ·)) ++
      lineTo depth ++ [closing]

mutual

/-- The printed form of a value at a level. -/
def pretty (depth : Nat) : Json → List Char
  | null => ['n', 'u', 'l', 'l']
  | number written => written
  | string text => quote text
  | array items => enclose depth '[' ']' (prettyItems (depth + 1) items)
  | object fields => enclose depth '{' '}' (prettyFields (depth + 1) fields)

def prettyItems (depth : Nat) : List Json → List (List Char)
  | [] => []
  | item :: rest => item.pretty depth :: prettyItems depth rest

def prettyFields (depth : Nat) : List (String × Json) → List (List Char)
  | [] => []
  | (name, value) :: rest =>
    (quote name ++ [':', ' '] ++ value.pretty depth) :: prettyFields depth rest

end

end Json

end LoxLexer
