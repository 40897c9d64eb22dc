-- SUMMARY: A run of the program: from arguments, files and standard input to exit status, output and notices.
import LoxLexer.CommandLine.Arguments
import LoxLexer.CommandLine.Directory
import LoxLexer.Session
import LoxLexer.Text.Backspace

/-!
# Runs

A run writes renderings to its output and *notices* to its error stream: log lines,
diagnostics, detailed reports, and what went wrong with the run itself. Notices are
values, so that the sequence of diagnostics can be told from the log around it. How
others word some of them is given apart from the run. What an editor of input lines
logs about itself is not among the notices.
-/

namespace LoxLexer.CommandLine

/-! ## Notices -/

/-- Why a run ends early. -/
inductive Failure where
  | sourceFile (path : String) (cause : ReadFailure)
  /-- A line of standard input is not UTF-8. -/
  | inputLine
  /-- A backspace would remove a part of a character, which rustyline cannot do. -/
  | backspace
  deriving DecidableEq, Repr

/-- What a run writes to its error stream. -/
inductive Notice where
  /-- The log line of an event, in the scan of so many bytes. -/
  | log (level : Level) (bytes : Nat) (e : Event)
  | diagnostic (d : Diagnostic)
  /-- The detailed report of a fault. -/
  | detail (f : Fault)
  | failure (f : Failure)
  | usage (e : UsageError)
  deriving DecidableEq, Repr

/-- What is written when an event happens. -/
def Notice.ofEvent? (filter : Filter) (bytes : Nat) (e : Event) : Option Notice :=
  match e with
  | .report d => some (.diagnostic d)
  | _ => do
    let level ← e.level?
    if filter.shows level bytes e then some (.log level bytes e) else none

/-! ## Wording -/

/-- How others word what is written to the error stream. -/
structure Wording where
  /-- The log line that tracing_subscriber writes for an event, behind so many notices. It begins
  with the time. -/
  log (index : Nat) (level : Level) (bytes : Nat) (e : Event) : String
  /-- The report of a fault by miette, with a snippet of the source that is attached to it. -/
  report (f : Fault) : String
  /-- What clap adds to the first line about a wrong use. -/
  advice (e : UsageError) : String
  /-- What is left behind when rustyline cannot go on. -/
  abort : String

/-- A wording without times and snippets: of a report there is only the code of the fault, and of
advice only how a command line is put together. -/
def Wording.brief : Wording where
  log _ level bytes e := e.logLine level bytes
  report f := f.cause.code
  advice _ := "\n" ++ synopsis ++ "\n"
  abort := ""

def Failure.text (w : Wording) : Failure → String
  | sourceFile path cause =>
    "Error: read source file '" ++ path ++ "'\n\nCaused by:\n    " ++ cause.message ++ "\n"
  | inputLine =>
    "Error: read line\n\nCaused by:\n    0: " ++ ReadFailure.notText.message ++
      "\n    1: " ++ ReadFailure.notText.message ++ "\n"
  | backspace => w.abort

/-- A notice as it is written behind so many others. -/
def Notice.text (w : Wording) (index : Nat) : Notice → String
  | log level bytes e => w.log index level bytes e ++ "\n"
  | diagnostic d => d.text ++ "\n"
  | detail f => w.report f ++ "\n"
  | failure f => f.text w
  | usage e => "error: " ++ e.message ++ "\n" ++ w.advice e

/-! ## Results -/

/-- How a run ends. -/
inductive Status where
  | success
  /-- Something could not be read. -/
  | failed
  /-- The command line is wrong. -/
  | misused
  /-- The source file has faults. -/
  | faulty
  /-- A line could not be edited. The program panics. -/
  | aborted
  deriving DecidableEq, Repr

/-- The exit status. -/
def Status.code : Status → Nat
  | success => 0
  | failed => 1
  | misused => 2
  | faulty => 65
  | aborted => 101

/-- How a run ends that cannot go on. -/
def Failure.status : Failure → Status
  | sourceFile .. | inputLine => .failed
  | backspace => .aborted

/-- What a run leaves behind. -/
structure Result where
  status : Status
  output : String
  notices : List Notice
  deriving DecidableEq, Repr

/-- What a run writes to the error stream. -/
def Result.errorText (r : Result) (w : Wording := .brief) : String :=
  String.join (r.notices.mapIdx (Notice.text w))

/-! ## Running -/

/-- What the scan of one source contributes to a run. -/
structure Transcript where
  output : String
  notices : List Notice
  faults : List Fault

/-- Scans a source and puts down what there is to write. -/
def Transcript.ofSource (filter : Filter) (o : Options) (source : String) : Transcript :=
  let s := Scan.run .silent () source
  { output := render o.format s.outcome.tokens
    notices := s.events.toList.filterMap (Notice.ofEvent? filter source.utf8ByteSize)
    faults := s.outcome.faults }

/-- Scans a file, given what reading it has yielded. Detailed reports point into the text of the
file, under its path. -/
def runFile (filter : Filter) (o : Options) (path : String)
    (content : Except ReadFailure (List UInt8)) : Result :=
  match content with
  | .error cause => ⟨.failed, "", [.failure (.sourceFile path cause)]⟩
  | .ok bytes =>
    match decode? bytes with
    | none => ⟨.failed, "", [.failure (.sourceFile path .notText)]⟩
    | some source =>
      let scanned := Transcript.ofSource filter o source
      let details :=
        if o.fancy then scanned.faults.map fun f => Notice.detail (f.attach ⟨path, source⟩) else []
      { status := if scanned.faults = [] then .success else .faulty
        output := scanned.output
        notices := scanned.notices ++ details }

/-- The source that a line of input is: what its backspaces leave of it, as rustyline obeys them. -/
def readLine (line : List UInt8) : Except Failure String :=
  match decode? line with
  | none => .error .inputLine
  | some typed =>
    match applyBackspaces typed.toList with
    | none => .error .backspace
    | some source => .ok (String.ofList source)

/-- Scans lines one by one, up to the first that cannot be read. Faults do not count
against the run. -/
def runLines (filter : Filter) (o : Options) : List (List UInt8) → Result
  | [] => ⟨.success, "", []⟩
  | line :: rest =>
    match readLine line with
    | .error failure => ⟨failure.status, "", [.failure failure]⟩
    | .ok source =>
      let scanned := Transcript.ofSource filter o source
      let later := runLines filter o rest
      { later with
        output := scanned.output ++ later.output
        notices := scanned.notices ++ later.notices }

/-- The run of the program with these arguments, a way to read files, standard
input, and the filter that the environment has for the log, if any. -/
def run (arguments : List String) (read : String → Except ReadFailure (List UInt8))
    (input : List UInt8) (environment : Option Filter := none) : Result :=
  match options arguments with
  | .error (.usage e) => ⟨.misused, "", [.usage e]⟩
  | .error .help => ⟨.success, help, []⟩
  | .ok o =>
    let filter := Filter.chosen environment o.verbosity
    match o.file with
    | some path => runFile filter o path (read path)
    | none => runLines filter o (inputLines input)

end LoxLexer.CommandLine
