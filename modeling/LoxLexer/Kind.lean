-- SUMMARY: The kinds of token of the Lox language: marks with one spelling, reserved words, and the three open classes.

/-!
# Token kinds

A token of Lox is a *mark* (punctuation or an operator), a reserved word, one of
the three classes whose members the program chooses (identifier, string, number),
or the end of the input. Marks and reserved words have exactly one spelling each.
-/

namespace LoxLexer

/-! ## Marks -/

/-- Punctuation and operators. -/
inductive Mark where
  | leftParen | rightParen | leftBrace | rightBrace
  | comma | dot | minus | plus | semicolon | slash | star
  | bang | bangEqual | equal | equalEqual
  | greater | greaterEqual | less | lessEqual
  deriving DecidableEq, Repr, Inhabited

namespace Mark

/-- All marks, in their customary order. -/
def all : List Mark :=
  [leftParen, rightParen, leftBrace, rightBrace, comma, dot, minus, plus, semicolon, slash, star,
    bang, bangEqual, equal, equalEqual, greater, greaterEqual, less, lessEqual]

/-- How a mark is written in a program. -/
def spelling : Mark → List Char
  | leftParen => ['(']
  | rightParen => [')']
  | leftBrace => ['{']
  | rightBrace => ['}']
  | comma => [',']
  | dot => ['.']
  | minus => ['-']
  | plus => ['+']
  | semicolon => [';']
  | slash => ['/']
  | star => ['*']
  | bang => ['!']
  | bangEqual => ['!', '=']
  | equal => ['=']
  | equalEqual => ['=', '=']
  | greater => ['>']
  | greaterEqual => ['>', '=']
  | less => ['<']
  | lessEqual => ['<', '=']

/-- The upper-case name of a mark, as token listings show it. -/
def name : Mark → String
  | leftParen => "LEFT_PAREN"
  | rightParen => "RIGHT_PAREN"
  | leftBrace => "LEFT_BRACE"
  | rightBrace => "RIGHT_BRACE"
  | comma => "COMMA"
  | dot => "DOT"
  | minus => "MINUS"
  | plus => "PLUS"
  | semicolon => "SEMICOLON"
  | slash => "SLASH"
  | star => "STAR"
  | bang => "BANG"
  | bangEqual => "BANG_EQUAL"
  | equal => "EQUAL"
  | equalEqual => "EQUAL_EQUAL"
  | greater => "GREATER"
  | greaterEqual => "GREATER_EQUAL"
  | less => "LESS"
  | lessEqual => "LESS_EQUAL"

theorem mem_all (m : Mark) : m ∈ all := by cases m <;> decide

end Mark

/-! ## Reserved words -/

/-- The reserved words. The underscore keeps them apart from words of this
language. -/
inductive Keyword where
  | and_ | class_ | else_ | false_ | fun_ | for_ | if_ | nil_
  | or_ | print_ | return_ | super_ | this_ | true_ | var_ | while_
  deriving DecidableEq, Repr, Inhabited

namespace Keyword

/-- All reserved words, in their customary order. -/
def all : List Keyword :=
  [and_, class_, else_, false_, fun_, for_, if_, nil_,
    or_, print_, return_, super_, this_, true_, var_, while_]

/-- How a reserved word is written in a program. -/
def spelling : Keyword → String
  | and_ => "and"
  | class_ => "class"
  | else_ => "else"
  | false_ => "false"
  | fun_ => "fun"
  | for_ => "for"
  | if_ => "if"
  | nil_ => "nil"
  | or_ => "or"
  | print_ => "print"
  | return_ => "return"
  | super_ => "super"
  | this_ => "this"
  | true_ => "true"
  | var_ => "var"
  | while_ => "while"

/-- The upper-case name of a reserved word, as token listings show it. -/
def name : Keyword → String
  | and_ => "AND"
  | class_ => "CLASS"
  | else_ => "ELSE"
  | false_ => "FALSE"
  | fun_ => "FUN"
  | for_ => "FOR"
  | if_ => "IF"
  | nil_ => "NIL"
  | or_ => "OR"
  | print_ => "PRINT"
  | return_ => "RETURN"
  | super_ => "SUPER"
  | this_ => "THIS"
  | true_ => "TRUE"
  | var_ => "VAR"
  | while_ => "WHILE"

/-- The reserved word with this spelling; case matters. -/
def ofSpelling? (word : String) : Option Keyword :=
  all.find? fun k => k.spelling = word

theorem mem_all (k : Keyword) : k ∈ all := by cases k <;> decide

/-- A word is looked up exactly when it is spelt as a reserved word. -/
theorem ofSpelling?_eq_some_iff {word : String} {k : Keyword} :
    ofSpelling? word = some k ↔ word = k.spelling := by
  constructor
  · intro found
    have spelt := List.find?_some found
    simpa [eq_comm] using spelt
  · rintro rfl
    cases k <;> decide

end Keyword

/-! ## Kinds -/

/-- What a token is. -/
inductive Kind where
  | mark (m : Mark)
  | identifier
  | string
  | number
  | keyword (k : Keyword)
  | eof
  deriving DecidableEq, Repr, Inhabited

namespace Kind

/-- All kinds, in the order that numbers them: marks, open classes, reserved
words, end of input. -/
def all : List Kind :=
  Mark.all.map mark ++ [identifier, string, number] ++ Keyword.all.map keyword ++ [eof]

/-- The upper-case name of a kind, as token listings show it. -/
def name : Kind → String
  | mark m => m.name
  | identifier => "IDENTIFIER"
  | string => "STRING"
  | number => "NUMBER"
  | keyword k => k.name
  | eof => "EOF"

/-- The kind of this name. -/
def ofName? (name : String) : Option Kind :=
  all.find? fun k => k.name = name

/-- The position of a kind in `all`, from zero. -/
def ordinal (k : Kind) : Nat := all.idxOf k

/-- Whether the kind is that of a reserved word. -/
def isKeyword : Kind → Bool
  | keyword _ => true
  | _ => false

/-- The kind of a word: a reserved word if it is spelt as one, else an
identifier. -/
def ofWord (word : String) : Kind :=
  match Keyword.ofSpelling? word with
  | some k => keyword k
  | none => identifier

theorem ofWord_eq_keyword_iff {word : String} {k : Keyword} :
    ofWord word = keyword k ↔ word = k.spelling := by
  rw [← Keyword.ofSpelling?_eq_some_iff, ofWord]
  split <;> simp_all

theorem ofWord_eq_identifier_iff {word : String} :
    ofWord word = identifier ↔ ∀ k : Keyword, word ≠ k.spelling := by
  simp only [ne_eq, ← Keyword.ofSpelling?_eq_some_iff, ← Option.eq_none_iff_forall_ne_some, ofWord]
  split <;> simp_all

theorem ofWord_ne_string (word : String) : ofWord word ≠ string := by
  unfold ofWord
  split <;> exact nofun

theorem ofWord_ne_number (word : String) : ofWord word ≠ number := by
  unfold ofWord
  split <;> exact nofun

theorem ofWord_ne_eof (word : String) : ofWord word ≠ eof := by
  unfold ofWord
  split <;> exact nofun

theorem mem_all (k : Kind) : k ∈ all := by
  cases k with
  | mark m => simp [all, Mark.mem_all]
  | keyword k => simp [all, Keyword.mem_all]
  | identifier | string | number | eof => decide

/-- No two kinds share a name. -/
theorem ofName?_name (k : Kind) : ofName? k.name = some k := by
  cases k with
  | mark m => cases m <;> decide
  | keyword k => cases k <;> decide
  | identifier | string | number | eof => decide

theorem name_injective {k l : Kind} (same : k.name = l.name) : k = l := by
  have found := ofName?_name k
  rw [same, ofName?_name] at found
  exact (Option.some.inj found).symm

end Kind

end LoxLexer
