-- SUMMARY: The events of a scan in the order in which they happen, and the filters of a log, which show some of them.
import LoxLexer.Token
import LoxLexer.Fault
import LoxLexer.Text.Control

/-!
# Events

A scan is observed through its events: a token found, a fault found, a diagnostic
handed to the reporter, the end. A log shows those that its filter lets through;
diagnostics have an output of their own and are in no log. A log writes out the
control characters in messages, while lexemes are shown as they are.
-/

namespace LoxLexer

/-- Something that happens in a scan. -/
inductive Event where
  | token (t : Token)
  | fault (f : Fault)
  /-- A diagnostic is handed to the reporter. -/
  | report (d : Diagnostic)
  /-- The source has been read, with so many tokens, faults and lines. -/
  | complete (tokens faults lines : Nat)
  deriving DecidableEq, Repr

/-! ## Levels -/

/-- How much detail a log line is. -/
inductive Level where
  | debug
  | trace
  deriving DecidableEq, Repr

namespace Level

def name : Level → String
  | debug => "DEBUG"
  | trace => "TRACE"

end Level

/-- The level of an event, if it is logged at all. -/
def Event.level? : Event → Option Level
  | token _ => some .trace
  | fault _ => some .debug
  | report _ => none
  | complete .. => some .debug

/-! ## Filters -/

/-- Which events a log shows. A filter can look at all that is logged with an event: its level, the
number of bytes of the source that is scanned, and the event itself. -/
structure Filter where
  shows (level : Level) (bytes : Nat) (e : Event) : Bool

namespace Filter

/-- Shows warnings at most. No event of a scan is one. -/
def warn : Filter := ⟨fun _ _ _ => false⟩

def debug : Filter := ⟨fun level _ _ => level = .debug⟩

def trace : Filter := ⟨fun _ _ _ => true⟩

/-- The filter for a log that was asked for so many times. Only if it was not asked for at all does
the filter of the environment (`RUST_LOG`) count; there may be none, or none that can be read. -/
def chosen (environment : Option Filter) (verbosity : UInt8) : Filter :=
  match verbosity with
  | 0 => environment.getD warn
  | 1 => debug
  | _ => trace

end Filter

/-! ## Log lines -/

namespace Event

/-- What a log says about an event. -/
def text : Event → String
  | token t =>
    "token kind=" ++ t.kind.name ++ " lexeme=" ++ t.lexeme ++ " line=" ++ toString t.line
  | fault f => "scan error line=" ++ toString f.line ++ " " ++ showControls f.message
  | report d => d.text
  | complete tokens faults lines =>
    "scan complete tokens=" ++ toString tokens ++ " errors=" ++ toString faults ++
      " lines=" ++ toString lines

/-- The log line of an event in the scan of a source of so many bytes, as tracing_subscriber lays it
out behind the time. -/
def logLine (level : Level) (bytes : Nat) (e : Event) : String :=
  level.name ++ " scan_with\x7blen=" ++ toString bytes ++ "\x7d: lox_scan::scanner::lexer: " ++
    e.text

end Event

end LoxLexer
