-- SUMMARY: A source scanned as a file and its lines scanned in a session have the same records and the same diagnostics.
import Mathlib.Data.List.Forall2
import LoxLexer.Proofs.FileRun
import LoxLexer.Proofs.SessionRun

/-!
# Files and sessions

A file is scanned at once, a session line by line. In a session every listing has a last record of
its own and every diagnostic is on line one; but for that the two have the same output and the same
diagnostics, as long as no line leaves a string open.
-/

namespace LoxLexer.CommandLine

/-! ## Agreement -/

/-- What a run over a file and a session over its lines have in common. The last record of each
listing is left out. -/
structure Agree (lines : List String) (file session : Result) : Prop where
  output : ∃ outputs : List String,
    List.Forall₂ (fun line output => render .text (scan line).tokens = output ++ "EOF  null\n")
      lines outputs ∧
    session.output = String.join (outputs.map (· ++ "EOF  null\n")) ∧
    file.output = String.join outputs ++ "EOF  null\n"
  messages : List.Forall₂ (fun d e => d.message = e.message) session.diagnostics file.diagnostics
  session_diagnostics : session.diagnostics = lines.flatMap reports
  session_line : ∀ d ∈ session.diagnostics, d.line = 1
  file_diagnostics : file.diagnostics = (lines.zipIdx 1).flatMap fun (line, n) =>
    (reports line).map fun d => { d with line := n }

/-- Numbers change no message. -/
theorem messages_numbered (first : Nat) (lines : List String) :
    List.Forall₂ (fun d e => d.message = e.message) (lines.flatMap reports) (numbered first lines) := by
  induction lines generalizing first with
  | nil => exact .nil
  | cons line lines ih =>
      rw [List.flatMap_cons, numbered_cons]
      refine List.rel_append ?_ (ih _)
      exact List.forall₂_map_right_iff.mpr (List.forall₂_same.mpr fun _ _ => rfl)

theorem newline_not_mem_of_hasLines {text : List Char} {lines : List String}
    (h : HasLines text lines) : ∀ line ∈ lines, '\n' ∉ line.toList := by
  induction h with
  | none => simp
  | unended nonempty absent => simpa using absent
  | feed absent noReturn others ih | returnFeed absent others ih =>
      exact List.forall_mem_cons.mpr ⟨by simpa using absent, ih⟩

/-- An input that is a text has lines. If a session is handed each of them as it is, and none leaves
a string open, then a run over the input as a file has the records of all lines and one last record,
and the diagnostics of all lines, each on the line of the input that it is about. -/
theorem file_agrees_with_session {input : List UInt8} {source : String}
    (valid : decode? input = some source) :
    (∃ lines, HasLines source.toList lines) ∧
    ∀ lines, HasLines source.toList lines → (∀ line ∈ lines, HandedOver line) →
      (∀ line ∈ lines, ∀ f ∈ (scan line).faults, f.cause ≠ .unclosed) →
      ∀ (filter other : Filter) (o p : Options), o.format = .text → p.format = .text → ∀ path,
        Agree lines (runFile filter o path (.ok input))
          (runLines other p (inputLines input)) := by
  refine ⟨exists_hasLines _, ?_⟩
  intro lines split handed closed filter other o p listed listed' path
  obtain ⟨all_records, all_reports⟩ := split.linewise closed
  rw [String.ofList_toList] at all_records all_reports
  have bytes : inputLines input = lines.map fun line => encoding line.toList := by
    rw [decode?_eq_some_iff.mp valid, split.inputLines_encoding]
  obtain ⟨output, diagnostics⟩ := runLines_of_handedOver other p handed
  rw [← bytes] at output diagnostics
  constructor
  case output =>
    refine ⟨lines.map fun line => String.ofList (records line), ?_, ?_, ?_⟩
    · rw [List.forall₂_map_right_iff, List.forall₂_same]
      exact fun line _ => render_eq_records line
    · rw [output, listed', List.map_map]
      exact congrArg String.join (List.map_congr_left fun line _ => render_eq_records line)
    · have joined : String.ofList (lines.flatMap records) =
          String.join (lines.map fun line => String.ofList (records line)) := by
        apply String.toList_injective
        simp [List.flatMap_map]
      rw [output_runFile filter o path valid, listed, render_eq_records, all_records, joined]
  case messages =>
    rw [diagnostics, diagnostics_runFile filter o path valid, all_reports]
    exact messages_numbered 1 lines
  case session_diagnostics => exact diagnostics
  case session_line =>
    rw [diagnostics]
    intro d member
    obtain ⟨line, among, member⟩ := List.mem_flatMap.mp member
    exact line_of_mem_reports (newline_not_mem_of_hasLines split line among) d member
  case file_diagnostics =>
    rw [diagnostics_runFile filter o path valid, all_reports]
    rfl

/-- Three lines: one with a quote in a comment and a carriage return, an empty one, and one that
nothing ends, with a carriage return that stays. -/
theorem file_agrees_with_session_returns :
    let first := ['@', '/', '/', 'é', '"']
    let last := ['1', '.', '#', '\r']
    let text := first ++ '\r' :: '\n' :: ([] ++ '\n' :: last)
    let lines := [String.ofList first, String.ofList [], String.ofList last]
    decode? (encoding text) = some (String.ofList text) ∧ HasLines text lines ∧
      (∀ line ∈ lines, HandedOver line) ∧
      (∀ line ∈ lines, ∀ f ∈ (scan line).faults, f.cause ≠ .unclosed) ∧
      Agree lines (runFile .trace {} "source.lox" (.ok (encoding text)))
        (runLines .warn {} (inputLines (encoding text))) := by
  intro first last text lines
  have valid : decode? (encoding text) = some (String.ofList text) :=
    decode?_eq_some_iff.mpr (by rw [String.toList_ofList])
  have split : HasLines text lines :=
    .returnFeed (by decide) (.feed (by decide) (by decide) (.unended (by decide) (by decide)))
  have handed : ∀ line ∈ lines, HandedOver line := by
    intro line member
    refine handedOver_of_not_mem ?_
    revert line
    decide
  have closed : ∀ line ∈ lines, ∀ f ∈ (scan line).faults, f.cause ≠ .unclosed := by
    decide +kernel
  refine ⟨valid, split, handed, closed, ?_⟩
  refine (file_agrees_with_session valid).2 lines ?_ handed closed .trace .warn {} {} rfl rfl _
  rwa [String.toList_ofList]

end LoxLexer.CommandLine
