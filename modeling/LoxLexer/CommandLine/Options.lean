-- SUMMARY: The options of the command line, the errors in using it, and the help text.
import LoxLexer.Rendering
import LoxLexer.Text.ControlSequence

/-!
# Options

What the command line can ask for, how a wrong use of it is described, and the text
that explains it. Messages and help are worded as clap does it for these options.
-/

namespace LoxLexer.CommandLine

/-! ## Options -/

/-- What a run is asked to do. -/
structure Options where
  /-- The source file; without one the lines of standard input are scanned. -/
  file : Option String := none
  format : Format := .text
  /-- Also write a detailed report of each fault. -/
  fancy : Bool := false
  /-- How often a more verbose log was asked for. -/
  verbosity : UInt8 := 0
  deriving DecidableEq, Repr

/-- One more, in a count that stops at the most that a byte can hold. -/
def countUp (n : UInt8) : UInt8 := if n = 255 then n else n + 1

/-! ## Settings -/

/-- An option of the command line. -/
inductive Setting where
  | format
  | fancy
  | verbose
  | help
  deriving DecidableEq, Repr

namespace Setting

/-- All options, in the order of the help text. -/
def all : List Setting := [format, fancy, verbose, help]

/-- The long name of an option. -/
def long : Setting → String
  | format => "format"
  | fancy => "fancy"
  | verbose => "verbose"
  | help => "help"

/-- The short name of an option, if it has one. -/
def short? : Setting → Option Char
  | format => none
  | fancy => none
  | verbose => some 'v'
  | help => some 'h'

/-- How messages call an option. -/
def usage : Setting → String
  | format => "--format <FORMAT>"
  | fancy => "--fancy"
  | verbose => "--verbose..."
  | help => "--help"

def ofLong? (name : String) : Option Setting := all.find? fun s => s.long = name

def ofShort? (name : Char) : Option Setting := all.find? fun s => s.short? = some name

end Setting

/-! ## Usage errors -/

/-- What an argument can be about. -/
inductive Param where
  | file
  | setting (s : Setting)
  deriving DecidableEq, Repr

/-- How messages call a parameter. -/
def Param.usage : Param → String
  | file => "[FILE]"
  | setting s => s.usage

/-- A wrong use of the command line. -/
inductive UsageError where
  | unexpectedArgument (argument : String)
  | missingValue (p : Param)
  | invalidFormat (name : String)
  | repeated (s : Setting)
  | unexpectedValue (s : Setting) (value : String)
  deriving DecidableEq, Repr

/-- A part of the command line in a message. What would direct a terminal is left
out. -/
def quoted (part : String) : String := "'" ++ withoutSequences part ++ "'"

/-- The first line about a wrong use. -/
def UsageError.message : UsageError → String
  | unexpectedArgument argument => "unexpected argument " ++ quoted argument ++ " found"
  | missingValue p => "a value is required for '" ++ p.usage ++ "' but none was supplied"
  | invalidFormat name =>
    "invalid value " ++ quoted name ++ " for '" ++ Setting.format.usage ++ "'"
  | repeated s => "the argument '" ++ s.usage ++ "' cannot be used multiple times"
  | unexpectedValue s value =>
    "unexpected value " ++ quoted value ++ " for '" ++ s.usage ++ "' found; no more were expected"

/-! ## Help -/

/-- How a command line is put together. -/
def synopsis : String := "Usage: lox-scan [OPTIONS] [FILE]"

/-- The help text. -/
def help : String :=
  "Scan Lox source into tokens\n\n" ++ synopsis ++ "\n\nArguments:\n" ++
  "  [FILE]  Lox source file to scan (omit for REPL)\n\nOptions:\n" ++
  "      --format <FORMAT>  Token output format [default: text] [possible values: text, json]\n" ++
  "      --fancy            Also render scan errors with source snippets\n" ++
  "  -v, --verbose...       Increase log verbosity (-v debug, -vv trace); overrides RUST_LOG\n" ++
  "  -h, --help             Print help\n"

end LoxLexer.CommandLine
