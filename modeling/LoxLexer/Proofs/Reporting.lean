-- SUMMARY: A scan with a reporter is the scan without one, and the reporter is told the diagnostics of its faults in order.
import LoxLexer.Proofs.Place

/-!
# What a reporter is told

A reporter learns of a fault when it is found, and of nothing else. So what it makes of
a scan is the fold of its step over the diagnostics of the faults, whatever its state,
and the scan itself does not depend on it.
-/

namespace LoxLexer

variable {σ : Type} (reporter : Reporter σ)

namespace Scan

variable (s : Scan σ)

theorem state_step_piece (p : Part) :
    (s.step reporter p.piece).state =
      ((p.fault? s.position).toList.map Fault.diagnostic).foldl reporter.report s.state := by
  have meaning := p.meaning_piece
  cases p <;> simp [step, Piece.finding?, meaning, Part.meaning, record, Part.fault?, Part.text]

theorem state_foldl_step_piece (parts : List Part) :
    ((parts.map Part.piece).foldl (step reporter) s).state =
      (((Part.located s.position parts).filterMap fun (place, p) => p.fault? place).map
        Fault.diagnostic).foldl reporter.report s.state := by
  induction parts generalizing s with
  | nil => rfl
  | cons p parts ih =>
      obtain ⟨position, -, -⟩ := s.step_piece reporter p
      rw [List.map_cons, List.foldl_cons, ih, position, state_step_piece,
        Part.filterMap_located_cons, List.map_append, List.foldl_append]

end Scan

/-- A reporter changes nothing about the scan, and is told the faults. -/
theorem scanWith_eq (state : σ) (source : String) :
    scanWith reporter state source =
      (scan source, ((scan source).faults.map Fault.diagnostic).foldl reporter.report state) := by
  obtain ⟨parts, divided, split⟩ := exists_divided source.toList
  obtain ⟨position, tokens, faults⟩ := (Scan.begin state).foldl_step_piece reporter parts
  have told := (Scan.begin state).state_foldl_step_piece reporter parts
  rw [scan_eq_outcome divided split, scanWith, Scan.run, ← split, divided.divide_texts]
  refine Prod.ext ?_ told
  simp only [Scan.outcome, Scan.finish, Part.outcome, Array.toList_push, position, tokens, faults]
  rfl

/-- The diagnostics that the scan of a source hands to its reporter, in order. -/
def reports (source : String) : List Diagnostic := (scanWith .recording #[] source).2.toList

theorem reports_eq (source : String) : reports source = (scan source).faults.map Fault.diagnostic := by
  rw [reports, scanWith_eq]
  simp [Reporter.recording]

/-- The diagnostic of a fault has no location. -/
theorem Fault.text_diagnostic (f : Fault) :
    f.diagnostic.text = "[line " ++ toString f.line ++ "] Error : " ++ f.message := by
  have colon (text : String) : text ++ "] Error " ++ "" ++ ": " = text ++ "] Error : " := by
    rw [String.append_empty, String.append_assoc]
    rfl
  exact congrArg (· ++ f.message) (colon _)

end LoxLexer
