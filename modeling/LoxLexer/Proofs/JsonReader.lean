-- SUMMARY: A strict reader of JSON texts, which goes over a text one character at a time.
import LoxLexer.Proofs.NumberText

/-!
# Reading JSON

The reader shares nothing with the printer but the characters of a text. It goes over them
once: characters make up symbols, and symbols make up values with the containers that are
open around them. A text is read only if it keeps to the grammar: strings hold no control
characters, halves of surrogate pairs come in pairs, numbers have no needless zeros, no comma
is left over, and only white space stands around the value.
-/

namespace LoxLexer

/-- What a JSON text says. Fields are in the order of the text. -/
inductive Datum where
  | null
  | bool (value : Bool)
  | number (value : SignedDecimal)
  | string (text : String)
  | array (items : List Datum)
  | object (fields : List (String × Datum))
  deriving Repr

namespace Reader

/-! ## Symbols -/

/-- A text is a sequence of symbols. -/
inductive Symbol where
  | openArray | closeArray | openObject | closeObject | comma | colon
  | string (text : String)
  /-- A number, or one of the three constants. -/
  | plain (value : Datum)

/-- The marks that are symbols by themselves. -/
def mark? : Char → Option Symbol
  | '[' => some .openArray
  | ']' => some .closeArray
  | '{' => some .openObject
  | '}' => some .closeObject
  | ',' => some .comma
  | ':' => some .colon
  | _ => none

def isSpace (c : Char) : Bool := c = ' ' || c = '\t' || c = '\n' || c = '\r'

/-- What numbers and constants are made of. -/
def isWordChar (c : Char) : Bool := c.isAlphanum || c = '+' || c = '-' || c = '.'

/-- What a longest run of such characters means. -/
def word? (word : List Char) : Option Datum :=
  if word = ['n', 'u', 'l', 'l'] then some .null
  else if word = ['t', 'r', 'u', 'e'] then some (.bool true)
  else if word = ['f', 'a', 'l', 's', 'e'] then some (.bool false)
  else (SignedDecimal.read? word).map .number

/-! ## Strings -/

/-- A string under way: its characters so far, and the first half of a surrogate pair if
the second must follow. -/
structure Partial where
  text : List Char
  half : Option Nat

namespace Partial

def push? (p : Partial) (c : Char) : Option Partial :=
  match p.half with
  | none => some ⟨p.text ++ [c], none⟩
  | some _ => none

/-- Goes on with a code unit of UTF-16. -/
def pushUnit? (p : Partial) (unit : Nat) : Option Partial :=
  let first := 0xD800 ≤ unit ∧ unit < 0xDC00
  let second := 0xDC00 ≤ unit ∧ unit < 0xE000
  match p.half with
  | none =>
    if first then some ⟨p.text, some unit⟩
    else if second then none
    else some ⟨p.text ++ [Char.ofNat unit], none⟩
  | some half =>
    if second then
      some ⟨p.text ++ [Char.ofNat (0x10000 + (half - 0xD800) * 0x400 + (unit - 0xDC00))], none⟩
    else none

end Partial

/-- The character that an escape of two characters stands for. -/
def escaped? : Char → Option Char
  | '"' => some '"'
  | '\\' => some '\\'
  | '/' => some '/'
  | 'b' => some '\x08'
  | 'f' => some '\x0c'
  | 'n' => some '\n'
  | 'r' => some '\r'
  | 't' => some '\t'
  | _ => none

def hexDigit? (c : Char) : Option Nat :=
  if '0' ≤ c ∧ c ≤ '9' then some (c.toNat - '0'.toNat)
  else if 'a' ≤ c ∧ c ≤ 'f' then some (10 + c.toNat - 'a'.toNat)
  else if 'A' ≤ c ∧ c ≤ 'F' then some (10 + c.toNat - 'A'.toNat)
  else none

/-! ## Characters -/

/-- Where in a symbol the reader is. -/
inductive Phase where
  | between
  | word (read : List Char)
  | string (read : Partial)
  /-- Behind a backslash. -/
  | escape (read : Partial)
  /-- Behind some of the four digits of a code unit. -/
  | unit (read : Partial) (count value : Nat)

namespace Phase

/-- A character that belongs to no symbol before it. -/
def begin? (c : Char) : Option (List Symbol × Phase) :=
  if isWordChar c then some ([], word [c])
  else if isSpace c then some ([], between)
  else if c = '"' then some ([], string ⟨[], none⟩)
  else (mark? c).map fun mark => ([mark], between)

/-- Goes over one character, which may complete up to two symbols. -/
def step? : Phase → Char → Option (List Symbol × Phase)
  | between, c => begin? c
  | word read, c =>
    if isWordChar c then some ([], word (read ++ [c]))
    else do
      let value ← word? read
      let (symbols, phase) ← begin? c
      return (.plain value :: symbols, phase)
  | string read, c =>
    if c = '"' then
      if read.half.isNone then some ([.string (String.ofList read.text)], between) else none
    else if c = '\\' then some ([], escape read)
    else if c.toNat < 0x20 then none
    else (read.push? c).map fun read => ([], string read)
  | escape read, c =>
    if c = 'u' then some ([], unit read 0 0)
    else do
      let c ← escaped? c
      let read ← read.push? c
      return ([], string read)
  | unit read count value, c => do
    let digit ← hexDigit? c
    let value := 16 * value + digit
    if count < 3 then return ([], unit read (count + 1) value)
    else
      let read ← read.pushUnit? value
      return ([], string read)

/-- The symbol that the end of a text completes. -/
def stop? : Phase → Option (List Symbol)
  | between => some []
  | word read => (word? read).map fun value => [.plain value]
  | string _ | escape _ | unit .. => none

end Phase

/-! ## Containers -/

/-- A container that is open: what it holds so far, and for an object the name of the field
whose value is read. -/
inductive Frame where
  | array (items : List Datum)
  | object (fields : List (String × Datum)) (name : String)

/-- What may come next, with the containers that are open, the innermost first. -/
inductive Place where
  /-- A value; or the end of the array, if the array is fresh. -/
  | value (fresh : Bool) (stack : List Frame)
  /-- The name of a field; or the end of the object, if the object is fresh. -/
  | name (fresh : Bool) (fields : List (String × Datum)) (stack : List Frame)
  /-- The colon behind a name. -/
  | colon (fields : List (String × Datum)) (name : String) (stack : List Frame)
  /-- What may stand behind a value. -/
  | behind (value : Datum) (stack : List Frame)

namespace Place

/-- Takes one symbol in. -/
def take? : Place → Symbol → Option Place
  | value _ stack, .plain v => some (behind v stack)
  | value _ stack, .string text => some (behind (.string text) stack)
  | value _ stack, .openArray => some (value true (.array [] :: stack))
  | value _ stack, .openObject => some (name true [] stack)
  | value true (.array items :: stack), .closeArray => some (behind (.array items) stack)
  | name _ fields stack, .string key => some (colon fields key stack)
  | name true fields stack, .closeObject => some (behind (.object fields) stack)
  | colon fields key stack, .colon => some (value false (.object fields key :: stack))
  | behind v (.array items :: stack), .comma => some (value false (.array (items ++ [v]) :: stack))
  | behind v (.array items :: stack), .closeArray => some (behind (.array (items ++ [v])) stack)
  | behind v (.object fields key :: stack), .comma => some (name false (fields ++ [(key, v)]) stack)
  | behind v (.object fields key :: stack), .closeObject =>
    some (behind (.object (fields ++ [(key, v)])) stack)
  | _, _ => none

/-- The value that is read if no container is open. -/
def whole? : Place → Option Datum
  | behind v [] => some v
  | _ => none

end Place

/-! ## Texts -/

/-- Reads the rest of a text. -/
def run (phase : Phase) (place : Place) : List Char → Option Datum
  | [] => do
    let symbols ← phase.stop?
    let place ← symbols.foldlM Place.take? place
    place.whole?
  | c :: rest => do
    let (symbols, phase) ← phase.step? c
    let place ← symbols.foldlM Place.take? place
    run phase place rest

end Reader

/-- Reads a text. -/
def Datum.read? (text : List Char) : Option Datum := Reader.run .between (.value false []) text

namespace Datum

example : read? " [ -0 , \x7b\"a\" : []\x7d ]\n".toList =
    some (.array [.number ⟨true, 0, 0⟩, .object [("a", .array [])]]) := by
  cbv

example : read? "\"\\ud83d\\ude00\"".toList = some (.string "😀") := by cbv

example : read? "[1,]".toList = none ∧ read? "01".toList = none ∧ read? "\"\n\"".toList = none := by
  cbv

end Datum

end LoxLexer
