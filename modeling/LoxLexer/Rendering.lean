-- SUMMARY: The two renderings of a token list: one record per token, and a JSON document; and the format names that select them.
import LoxLexer.Token
import LoxLexer.Json

/-!
# Renderings

A listing has one record per token: kind, lexeme and literal, with `null` for a
missing literal. A document is a JSON array of objects that hold every field. A
format name selects one of the two.
-/

namespace LoxLexer

/-! ## Formats -/

/-- How tokens are rendered. -/
inductive Format where
  | text
  | json
  deriving DecidableEq, Repr, Inhabited

namespace Format

def name : Format → String
  | text => "text"
  | json => "json"

/-- All formats. -/
def all : List Format := [text, json]

/-- The format of this name; on request the case of its letters does not matter. -/
def ofName? (name : String) (ignoreCase : Bool) : Option Format :=
  let spelt := if ignoreCase then name.toList.map Char.toLower else name.toList
  all.find? fun f => f.name.toList = spelt

/-- What is said about a name that selects no format. -/
def invalidName (name : String) : String := "invalid variant: " ++ name

end Format

/-! ## Listings -/

/-- The record of a token in a listing, without its line break. -/
def Token.record (t : Token) : List Char :=
  let literal := match t.literal with
    | some literal => literal.text
    | none => ['n', 'u', 'l', 'l']
  t.kind.name.toList ++ ' ' :: t.lexeme.toList ++ ' ' :: literal

/-- The listing of tokens. -/
def listing (tokens : List Token) : List Char := tokens.flatMap fun t => t.record ++ ['\n']

/-! ## Documents -/

/-- The value of a literal in a document. A number that is not finite has no
written form in JSON and becomes a string. -/
def Literal.toJson : Literal → Json
  | .string text => .string text
  | .number x =>
    if x.isFinite then .number (x.text .document)
    else .string (String.ofList (x.text .document))

def Span.toJson (s : Span) : Json :=
  .object [("offset", .ofNat s.offset), ("len", .ofNat s.length)]

/-- The object of a token in a document. -/
def Token.toJson (t : Token) : Json :=
  let literal := match t.literal with
    | some literal => literal.toJson
    | none => .null
  .object [
    ("kind", .string t.kind.name),
    ("lexeme", .string t.lexeme),
    ("literal", literal),
    ("line", .ofNat t.line),
    ("span", t.span.toJson)]

/-- The document of tokens. -/
def document (tokens : List Token) : List Char :=
  (Json.array (tokens.map Token.toJson)).pretty 0 ++ ['\n']

/-- The rendering of tokens in a format. -/
def render (format : Format) (tokens : List Token) : String :=
  match format with
  | .text => String.ofList (listing tokens)
  | .json => String.ofList (document tokens)

end LoxLexer
