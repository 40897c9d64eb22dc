-- SUMMARY: Reading the arguments of the command line into options, one after the other.
import LoxLexer.CommandLine.Options

/-!
# Arguments

Arguments are read from left to right, in the way of clap. A file name or a format
is only noted when it is met, and checked when the next accepted argument comes, or
at the end; so an argument that is not accepted at all is complained about first.
Asking for help ends the reading at once.
-/

namespace LoxLexer.CommandLine

/-- Why reading the arguments ends without options. -/
inductive Stop where
  | usage (e : UsageError)
  | help
  deriving DecidableEq, Repr

/-- An argument that is noted and not yet checked. -/
inductive Pending where
  | nothing
  | file (path : String)
  /-- A format, whose name may be still to come. -/
  | format (name : Option String)
  deriving DecidableEq, Repr

/-- What has been read of the arguments. -/
structure Reading where
  file : Option String := none
  format : Option Format := none
  fancy : Bool := false
  verbosity : UInt8 := 0
  pending : Pending := .nothing
  deriving DecidableEq, Repr

namespace Reading

/-! ## Checking -/

/-- Checks the argument that is pending. -/
def settle (r : Reading) : Except Stop Reading :=
  match r.pending with
  | .nothing => .ok r
  | .file path =>
    if path = "" then .error (.usage (.missingValue .file))
    else .ok { r with file := some path, pending := .nothing }
  | .format none => .error (.usage (.missingValue (.setting .format)))
  | .format (some name) =>
    if r.format.isSome then .error (.usage (.repeated .format))
    else if name = "" then .error (.usage (.missingValue (.setting .format)))
    else match Format.ofName? name false with
      | some format => .ok { r with format := some format, pending := .nothing }
      | none => .error (.usage (.invalidFormat name))

/-! ## Single arguments -/

/-- Whether a file has been named, checked or not. -/
def hasFile (r : Reading) : Bool :=
  r.file.isSome || match r.pending with
    | .file _ => true
    | _ => false

/-- Reads a file name. -/
def operand (r : Reading) (argument : String) : Except Stop Reading :=
  if r.hasFile then .error (.usage (.unexpectedArgument argument))
  else do
    let r ← r.settle
    return { r with pending := .file argument }

/-- Reads an argument that is no option: the format that is awaited, or a file
name. -/
def word (r : Reading) (argument : String) : Except Stop Reading :=
  match r.pending with
  | .format none => .ok { r with pending := .format (some argument) }
  | _ => r.operand argument

/-- Reads an option, and the value given with it. Only the format takes one. -/
def setting (r : Reading) (s : Setting) (value : Option String) : Except Stop Reading :=
  match s, value with
  | .format, some name => do
    let r ← r.settle
    settle { r with pending := .format (some name) }
  | .format, none => do
    let r ← r.settle
    return { r with pending := .format none }
  | s, some value => .error (.usage (.unexpectedValue s value))
  | .fancy, none => do
    let r ← r.settle
    if r.fancy then .error (.usage (.repeated .fancy)) else return { r with fancy := true }
  | .verbose, none => do
    let r ← r.settle
    return { r with verbosity := countUp r.verbosity }
  | .help, none => do
    let _ ← r.settle
    .error .help

/-- Reads an option with a long name. -/
def long (r : Reading) (name : String) (value : Option String) : Except Stop Reading :=
  match Setting.ofLong? name with
  | some s => r.setting s value
  | none => .error (.usage (.unexpectedArgument ("--" ++ name)))

/-- Reads an option with a short name. -/
def short (r : Reading) (name : Char) : Except Stop Reading :=
  match Setting.ofShort? name with
  | some s => r.setting s none
  | none => .error (.usage (.unexpectedArgument (String.ofList ['-', name])))

/-- Reads an argument in front of the one that ends the options. Short names may
stand together behind one dash. -/
def argument (r : Reading) (argument : String) : Except Stop Reading :=
  match argument.toList with
  | '-' :: '-' :: option =>
    let name := option.takeWhile (· ≠ '=')
    let value := (option.dropWhile (· ≠ '=')).tail?
    r.long (String.ofList name) (value.map String.ofList)
  | '-' :: c :: names => (c :: names).foldlM short r
  | _ => r.word argument

end Reading

/-! ## The whole command line -/

/-- The options that the arguments ask for, as clap reads them. Behind an argument
`--` there are only file names. -/
def options (arguments : List String) : Except Stop Options := do
  let r ← (arguments.takeWhile (· ≠ "--")).foldlM Reading.argument {}
  let r ← ((arguments.dropWhile (· ≠ "--")).drop 1).foldlM Reading.operand r
  let r ← r.settle
  return {
    file := r.file
    format := r.format.getD .text
    fancy := r.fancy
    verbosity := r.verbosity }

end LoxLexer.CommandLine
