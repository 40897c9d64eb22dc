-- SUMMARY: The scan of a source: one pass over its pieces that gathers tokens and faults and informs a reporter.
import LoxLexer.Finding
import LoxLexer.Event

/-!
# Scanning

A scan goes over the pieces of a source once. It keeps the position it has reached,
the tokens and faults found so far, the events that have happened, and the state of
the reporter, which receives the diagnostic of each fault when the fault is found.
-/

namespace LoxLexer

/-! ## The state of a scan -/

/-- A scan under way. -/
structure Scan (σ : Type) where
  position : Position
  tokens : Array Token
  faults : Array Fault
  events : Array Event
  /-- The state of the reporter. -/
  state : σ

namespace Scan

variable {σ : Type}

/-- A scan before its first piece. -/
def begin (state : σ) : Scan σ := ⟨.start, #[], #[], #[], state⟩

/-- Records a finding, and reports it if it is a fault. -/
def record (reporter : Reporter σ) (s : Scan σ) : Finding → Scan σ
  | .token t => { s with tokens := s.tokens.push t, events := s.events.push (.token t) }
  | .fault f =>
    { s with
      faults := s.faults.push f
      events := (s.events.push (.fault f)).push (.report f.diagnostic)
      state := reporter.report s.state f.diagnostic }

/-- Goes over one piece. -/
def step (reporter : Reporter σ) (s : Scan σ) (p : Piece) : Scan σ :=
  let passed := { s with position := s.position.after p.text }
  match p.finding? s.position with
  | some finding => passed.record reporter finding
  | none => passed

/-- Adds the token that ends the list. -/
def finish (s : Scan σ) : Scan σ :=
  let tokens := s.tokens.push (Token.eof s.position)
  let event := Event.complete tokens.size s.faults.size s.position.line
  { s with tokens, events := s.events.push event }

/-- The whole scan of a source. -/
def run (reporter : Reporter σ) (state : σ) (source : String) : Scan σ :=
  ((Piece.divide source.toList).foldl (step reporter) (begin state)).finish

end Scan

/-! ## Results -/

/-- What a scan yields: all tokens, the last of them the end of input, and all
faults, both in the order of the source. -/
structure Outcome where
  tokens : List Token
  faults : List Fault
  deriving DecidableEq, Repr

/-- Whether any fault was found. -/
def Outcome.hasFault (o : Outcome) : Bool := !o.faults.isEmpty

variable {σ : Type}

/-- What a scan has yielded so far. -/
def Scan.outcome (s : Scan σ) : Outcome := ⟨s.tokens.toList, s.faults.toList⟩

/-- Scans a source and informs a reporter. -/
def scanWith (reporter : Reporter σ) (state : σ) (source : String) : Outcome × σ :=
  let s := Scan.run reporter state source
  (s.outcome, s.state)

/-- Scans a source. -/
def scan (source : String) : Outcome := (scanWith .silent () source).1

end LoxLexer
