-- SUMMARY: The events of a scan are those of its parts in order and its end, and what a run writes of them holds the diagnostics of the scan.
import Mathlib.Data.List.Basic
import LoxLexer.CommandLine.Run
import LoxLexer.Proofs.Reporting

/-!
# The events of a scan

Each part of a source has its own events where it stands: a token is found, or a fault is found and
reported. A scan has the events of all parts, in order, and then ends. What a run writes are some of
these events; of the diagnostics it leaves out none.
-/

namespace LoxLexer

variable {σ : Type} (reporter : Reporter σ)

/-! ## Events of parts -/

/-- What happens when a part is found at a place. -/
def Part.events (place : Position) (p : Part) : List Event :=
  (p.token? place).toList.map .token ++
    (p.fault? place).toList.flatMap fun f => [.fault f, .report f.diagnostic]

namespace Scan

variable (s : Scan σ)

theorem events_step_piece (p : Part) :
    (s.step reporter p.piece).events.toList = s.events.toList ++ p.events s.position := by
  have meaning := p.meaning_piece
  cases p <;>
    simp [step, Piece.finding?, meaning, Part.meaning, record, Part.events, Part.token?, Part.fault?,
      Part.text, Lexeme.spelling]

theorem events_foldl_step_piece (parts : List Part) :
    ((parts.map Part.piece).foldl (step reporter) s).events.toList =
      s.events.toList ++ (Part.located s.position parts).flatMap fun (place, p) => p.events place := by
  induction parts generalizing s with
  | nil => simp [Part.located]
  | cons p parts ih =>
      obtain ⟨position, -, -⟩ := s.step_piece reporter p
      rw [List.map_cons, List.foldl_cons, ih, position, events_step_piece, List.append_assoc]
      rfl

end Scan

/-- The events of a scan are those of its parts, and its end. -/
theorem Scan.events_run (state : σ) {source : String} {parts : List Part} (h : Divided parts)
    (split : Part.texts parts = source.toList) :
    (Scan.run reporter state source).events.toList =
      ((Part.located .start parts).flatMap fun (place, p) => p.events place) ++
        [.complete (scan source).tokens.length (scan source).faults.length
          (1 + lineBreaks source.toList)] := by
  obtain ⟨position, tokens, faults⟩ := (Scan.begin state).foldl_step_piece reporter parts
  have events := (Scan.begin state).events_foldl_step_piece reporter parts
  simp only [scan_eq_outcome h split, Scan.run, ← split, h.divide_texts, Scan.finish, Part.outcome,
    Array.toList_push, events, position, ← Array.length_toList, tokens, faults]
  rfl

/-! ## Diagnostics -/

/-- The diagnostic that an event hands to the reporter. -/
def Event.diagnostic? : Event → Option Diagnostic
  | .report d => some d
  | .token _ | .fault _ | .complete .. => none

/-- The diagnostics among the events of a scan are its reports. -/
theorem Scan.filterMap_diagnostic_events (state : σ) (source : String) :
    (Scan.run reporter state source).events.toList.filterMap Event.diagnostic? = reports source := by
  obtain ⟨parts, divided, split⟩ := exists_divided source.toList
  have reported (place : Position) (p : Part) : (p.events place).filterMap Event.diagnostic? =
      ((p.fault? place).map Fault.diagnostic).toList := by
    cases p <;> rfl
  rw [events_run reporter state divided split, reports_eq, scan_eq_outcome divided split,
    Part.outcome, List.filterMap_append, List.filterMap_flatMap, List.map_filterMap]
  simp only [reported, ← List.filterMap_eq_flatMap_toList]
  exact List.append_nil _

namespace CommandLine

/-- The diagnostic that is written as a notice. -/
def Notice.diagnostic? : Notice → Option Diagnostic
  | .diagnostic d => some d
  | .log .. | .detail _ | .failure _ | .usage _ => none

/-- The diagnostics that a run writes, in order. -/
def Result.diagnostics (r : Result) : List Diagnostic := r.notices.filterMap Notice.diagnostic?

section Written

variable {filter : Filter} {bytes : Nat} {e : Event}

theorem Notice.ofEvent?_of_report {d : Diagnostic} (reported : e.diagnostic? = some d) :
    ofEvent? filter bytes e = some (.diagnostic d) := by
  cases e <;> cases reported
  rfl

/-- Of an event that reports nothing at most a line of the log is written. -/
theorem Notice.ofEvent?_of_no_report (silent : e.diagnostic? = none) :
    ofEvent? filter bytes e = none ∨
      ∃ level, ofEvent? filter bytes e = some (.log level bytes e) := by
  cases e with
  | report d => cases silent
  | _ =>
      simp only [ofEvent?, Event.level?, Option.bind_eq_bind, Option.bind_some]
      split
      · exact .inr ⟨_, rfl⟩
      · exact .inl rfl

theorem Notice.diagnostic?_ofEvent? : (ofEvent? filter bytes e).bind diagnostic? = e.diagnostic? := by
  cases reported : e.diagnostic? with
  | some d => rw [ofEvent?_of_report reported, Option.bind_some, diagnostic?]
  | none =>
      rcases @ofEvent?_of_no_report filter bytes e reported with none | ⟨level, line⟩
      · rw [none, Option.bind_none]
      · rw [line, Option.bind_some, diagnostic?]

end Written

/-- Whatever else is put down for a source, its diagnostics are. -/
theorem Transcript.filterMap_diagnostic_notices (filter : Filter) (o : Options) (source : String) :
    (ofSource filter o source).notices.filterMap Notice.diagnostic? = reports source := by
  rw [← Scan.filterMap_diagnostic_events .silent (), ofSource, List.filterMap_filterMap]
  exact congrArg (List.filterMap · _) (funext fun _ => Notice.diagnostic?_ofEvent?)

/-! ## Logs -/

/-- Whether a notice is a line of the log. -/
def Notice.isLog : Notice → Bool
  | .log .. => true
  | .diagnostic _ | .detail _ | .failure _ | .usage _ => false

/-- The notices that would be written without a log. -/
def unlogged (notices : List Notice) : List Notice := notices.filter fun n => !n.isLog

theorem unlogged_append (a b : List Notice) : unlogged (a ++ b) = unlogged a ++ unlogged b :=
  List.filter_append ..

theorem Notice.filter_ofEvent? (filter : Filter) (bytes : Nat) (e : Event) :
    (ofEvent? filter bytes e).filter (fun n => !n.isLog) = e.diagnostic?.map .diagnostic := by
  cases reported : e.diagnostic? with
  | some d =>
      rw [ofEvent?_of_report reported]
      rfl
  | none =>
      rcases @ofEvent?_of_no_report filter bytes e reported with none | ⟨level, line⟩
      · rw [none]
        rfl
      · rw [line]
        rfl

/-- But for the log only the diagnostics are put down for a source. -/
theorem Transcript.unlogged_notices (filter : Filter) (o : Options) (source : String) :
    unlogged (ofSource filter o source).notices = (reports source).map .diagnostic := by
  rw [← Scan.filterMap_diagnostic_events .silent (), ofSource, unlogged, List.filter_filterMap,
    List.map_filterMap]
  exact congrArg (List.filterMap · _) (funext (Notice.filter_ofEvent? _ _))

/-- A log of warnings only is empty. -/
theorem Transcript.notices_warn (o : Options) (source : String) :
    (ofSource .warn o source).notices = (reports source).map .diagnostic := by
  have event (bytes : Nat) (e : Event) :
      Notice.ofEvent? .warn bytes e = e.diagnostic?.map .diagnostic := by
    cases e <;> rfl
  rw [← Scan.filterMap_diagnostic_events .silent (), ofSource, List.map_filterMap]
  exact congrArg (List.filterMap · _) (funext (event _))

end CommandLine

end LoxLexer
