-- SUMMARY: A run over lines: each line up to the first that is no text is scanned by itself, and adds a block of its own to what the run writes.
import Mathlib.Data.List.Basic
import LoxLexer.Proofs.Flags
import LoxLexer.Proofs.LineByLine
import LoxLexer.Proofs.Trace

/-!
# Runs over lines

In a session nothing is kept from one line for the next. What the run writes is the concatenation of
what the single lines add, in order, up to the first line that is no text; that one ends the run.

A line is handed over by an editor, which obeys the backspaces in it. `HandedOver` says that a line
reaches the scan as it was typed, and a line without backspaces always does.
-/

namespace LoxLexer.CommandLine

variable (filter : Filter) (o : Options)

/-! ## Lines that are handed over -/

/-- The line that is read is the line that was typed. -/
def HandedOver (line : String) : Prop := readLine (encoding line.toList) = .ok line

/-- Only backspaces change a line. -/
theorem handedOver_of_not_mem {line : String} (absent : backspace ∉ line.toList) :
    HandedOver line := by
  have typed : decode? (encoding line.toList) = some line := decode?_eq_some_iff.mpr rfl
  rw [HandedOver, readLine, typed]
  dsimp only
  rw [applyBackspaces_eq_self absent]
  dsimp only
  rw [String.ofList_toList]

/-! ## Lines that are texts -/

def isText (line : List UInt8) : Bool := (decode? line).isSome

/-- The texts that the lines are, up to the first line that is none. -/
def leadingTexts : List (List UInt8) → List String
  | [] => []
  | line :: rest =>
    match decode? line with
    | some source => source :: leadingTexts rest
    | none => []

section Lines

variable {lines : List (List UInt8)}

theorem leadingTexts_cons_encoding (source : String) (rest : List (List UInt8)) :
    leadingTexts (encoding source.toList :: rest) = source :: leadingTexts rest := by
  have valid : decode? (encoding source.toList) = some source := decode?_eq_some_iff.mpr rfl
  rw [leadingTexts, valid]

/-- Texts of lines are lines. -/
theorem newline_not_mem_of_leadingTexts (inLine : ∀ line ∈ lines, lineEnd ∉ line) :
    ∀ source ∈ leadingTexts lines, '\n' ∉ source.toList := by
  induction lines with
  | nil => simp [leadingTexts]
  | cons line rest ih =>
      obtain ⟨first, others⟩ := List.forall_mem_cons.mp inLine
      rw [leadingTexts]
      cases valid : decode? line with
      | none => simp
      | some source =>
          refine List.forall_mem_cons.mpr ⟨fun member => first ?_, ih others⟩
          rw [decode?_eq_some_iff.mp valid]
          exact List.mem_flatMap.mpr ⟨'\n', member, List.mem_singleton.mpr rfl⟩

end Lines

/-! ## Runs -/

theorem Failure.status_ne_success (f : Failure) : f.status ≠ .success := by
  cases f <;> exact nofun

/-- A run goes on from one list of lines to the next if the first has not ended it. -/
theorem runLines_append (a b : List (List UInt8)) :
    runLines filter o (a ++ b) =
      if (runLines filter o a).status = .success then
        { runLines filter o b with
          output := (runLines filter o a).output ++ (runLines filter o b).output
          notices := (runLines filter o a).notices ++ (runLines filter o b).notices }
      else runLines filter o a := by
  induction a with
  | nil =>
      rw [List.nil_append, runLines, if_pos rfl, String.empty_append]
      rfl
  | cons line a ih =>
      rw [List.cons_append, runLines, runLines]
      cases readLine line with
      | error f => exact (if_neg f.status_ne_success).symm
      | ok source =>
          dsimp only
          rw [ih]
          split
          · rw [String.append_assoc, List.append_assoc]
          · rfl

/-- A line that is no text ends every run that reaches it. -/
theorem status_runLines_ne_success {lines : List (List UInt8)}
    (noText : ∃ line ∈ lines, decode? line = none) : (runLines filter o lines).status ≠ .success := by
  induction lines with
  | nil => simp at noText
  | cons line rest ih =>
      rw [runLines]
      cases read : readLine line with
      | error f => exact f.status_ne_success
      | ok source =>
          have valid : decode? line ≠ none := by
            intro none
            rw [readLine, none] at read
            cases read
          obtain ⟨other, member, none⟩ := noText
          rcases List.mem_cons.mp member with rfl | later
          · exact absurd none valid
          · exact ih ⟨other, later, none⟩

/-- A run over lines that are handed over writes what their texts add, one after the other. -/
theorem runLines_eq {lines : List (List UInt8)} (handed : ∀ s ∈ leadingTexts lines, HandedOver s) :
    runLines filter o lines =
      { status := if lines.all isText then .success else .failed
        output :=
          String.join ((leadingTexts lines).map fun s => (Transcript.ofSource filter o s).output)
        notices := ((leadingTexts lines).flatMap fun s => (Transcript.ofSource filter o s).notices) ++
          if lines.all isText then [] else [.failure .inputLine] } := by
  induction lines with
  | nil => rfl
  | cons line rest ih =>
      rw [leadingTexts] at handed ⊢
      rw [List.all_cons, isText]
      cases valid : decode? line with
      | none =>
          rw [runLines, readLine, valid]
          rfl
      | some source =>
          rw [valid] at handed
          obtain ⟨first, others⟩ := List.forall_mem_cons.mp handed
          rw [HandedOver, ← decode?_eq_some_iff.mp valid] at first
          rw [runLines, first, ih others]
          dsimp only
          rw [Option.isSome_some, Bool.true_and, List.map_cons, String.join_cons, List.flatMap_cons,
            List.append_assoc]

section Handed

variable {lines : List (List UInt8)} (handed : ∀ s ∈ leadingTexts lines, HandedOver s)

include handed

theorem output_runLines : (runLines filter o lines).output =
    String.join ((leadingTexts lines).map fun s => render o.format (scan s).tokens) := by
  rw [runLines_eq filter o handed]
  rfl

theorem diagnostics_runLines :
    (runLines filter o lines).diagnostics = (leadingTexts lines).flatMap reports := by
  have last : (if lines.all isText then [] else [Notice.failure .inputLine]).filterMap
      Notice.diagnostic? = [] := by
    split <;> rfl
  rw [runLines_eq filter o handed, Result.diagnostics, List.filterMap_append, last, List.append_nil,
    List.filterMap_flatMap]
  exact congrArg (List.flatMap · _) (funext (Transcript.filterMap_diagnostic_notices filter o))

theorem unlogged_runLines : unlogged (runLines filter o lines).notices =
    ((leadingTexts lines).flatMap reports).map .diagnostic ++
      if lines.all isText then [] else [.failure .inputLine] := by
  have last : unlogged (if lines.all isText then [] else [.failure .inputLine]) =
      if lines.all isText then [] else [.failure .inputLine] := by
    split <;> rfl
  rw [runLines_eq filter o handed, unlogged_append, last, unlogged, List.filter_flatMap, List.map_flatMap]
  exact congrArg (· ++ _) (congrArg (List.flatMap · _) (funext (Transcript.unlogged_notices filter o)))

end Handed

/-- A session over lines that are handed over renders and reports each of them. -/
theorem runLines_of_handedOver {lines : List String} (handed : ∀ line ∈ lines, HandedOver line) :
    let r := runLines filter o (lines.map fun line => encoding line.toList)
    r.output = String.join (lines.map fun line => render o.format (scan line).tokens) ∧
      r.diagnostics = lines.flatMap reports := by
  have texts : leadingTexts (lines.map fun line => encoding line.toList) = lines := by
    induction lines with
    | nil => rfl
    | cons line lines ih =>
        rw [List.map_cons, leadingTexts_cons_encoding, ih (List.forall_mem_cons.mp handed).2]
  rw [← texts] at handed
  exact ⟨by rw [output_runLines filter o handed, texts],
    by rw [diagnostics_runLines filter o handed, texts]⟩

/-! ## Results -/

/-- What a session with these options over lines leaves behind. -/
structure Result.IsSessionOver (r : Result) (o : Options) (lines : List (List UInt8)) : Prop where
  output : r.output = String.join ((leadingTexts lines).map fun s => render o.format (scan s).tokens)
  diagnostics : r.diagnostics =
    (leadingTexts lines).flatMap fun s => (scan s).faults.map fun f => ⟨1, "", f.message⟩
  /-- But for the log only the diagnostics are written, and the notice of a line that is no text. -/
  notices : unlogged r.notices = r.diagnostics.map .diagnostic ++
    if ∀ line ∈ lines, decode? line ≠ none then [] else [.failure .inputLine]
  success : (∀ line ∈ lines, decode? line ≠ none) → r.status.code = 0
  failure : (∃ line ∈ lines, decode? line = none) → r.status.code = 1 ∧
    ∃ earlier, r.notices = earlier ++ [.failure .inputLine] ∧
      ∀ w : Wording, r.errorText w = String.join (earlier.mapIdx (Notice.text w)) ++
        ("Error: read line\n\nCaused by:\n    0: stream did not contain valid UTF-8\n" ++
          "    1: stream did not contain valid UTF-8\n")

theorem all_isText_iff {lines : List (List UInt8)} :
    lines.all isText = true ↔ ∀ line ∈ lines, decode? line ≠ none := by
  simp [isText, Option.isSome_iff_ne_none]

theorem reports_of_line {line : String} (absent : '\n' ∉ line.toList) :
    reports line = (scan line).faults.map fun f => ⟨1, "", f.message⟩ := by
  have first := line_of_mem_reports absent
  rw [reports_eq] at first ⊢
  refine List.map_congr_left fun f member => ?_
  have line : f.line = 1 := first _ (List.mem_map_of_mem member)
  rw [Fault.diagnostic, line]

theorem isSessionOver_runLines {lines : List (List UInt8)} (inLine : ∀ line ∈ lines, lineEnd ∉ line)
    (handed : ∀ s ∈ leadingTexts lines, HandedOver s) :
    (runLines filter o lines).IsSessionOver o lines where
  output := output_runLines filter o handed
  diagnostics := by
    have texts := newline_not_mem_of_leadingTexts inLine
    rw [diagnostics_runLines filter o handed]
    exact List.flatMap_congr fun s member => reports_of_line (texts s member)
  notices := by
    rw [unlogged_runLines filter o handed, diagnostics_runLines filter o handed, if_congr all_isText_iff rfl rfl]
  success := by
    intro all
    rw [runLines_eq filter o handed, if_pos (all_isText_iff.mpr all)]
    rfl
  failure := by
    rintro ⟨line, member, noText⟩
    have ended : ¬ lines.all isText = true := fun all => all_isText_iff.mp all line member noText
    rw [runLines_eq filter o handed, if_neg ended, if_neg ended]
    refine ⟨rfl, _, rfl, fun w => ?_⟩
    rw [Result.errorText, List.mapIdx_append, String.join_append]
    refine congrArg _ ?_
    -- No part of this notice is worded by others.
    change String.join [Failure.text .brief .inputLine] = _
    decide

/-! ## The program -/

/-- A command line that names no file runs over the lines of the input. -/
theorem run_eq_runLines {arguments : List String} {o : Options} (asked : options arguments = .ok o)
    (noFile : o.file = none) (read : String → Except ReadFailure (List UInt8)) {input : List UInt8}
    {lines : List (List UInt8)} (lined : Lined input lines) (environment : Option Filter) :
    run arguments read input environment =
      runLines (.chosen environment o.verbosity) o lines := by
  rw [run, asked]
  dsimp only
  rw [noFile, lined.inputLines_eq]

/-- An input has lines, in one way. If those that are texts are handed over as they are, the run
renders and reports each of them up to the first line that is no text, and its status tells only
whether there is such a line. All that depends on a line is one block of the output and one of the
notices, and nothing does if the run ends before. -/
theorem run_over_lines (read : String → Except ReadFailure (List UInt8))
    (environment : Option Filter) :
    (∀ (format : Format) (fancy : Bool) (times : Nat), options (flags format fancy times) =
      .ok { format, fancy, verbosity := .ofNat (min times 255) }) ∧
    (∀ input, ∃ lines, Lined input lines ∧ ∀ others, Lined input others → others = lines) ∧
    ∀ (arguments : List String) (o : Options), options arguments = .ok o → o.file = none →
      (∀ input lines, Lined input lines → (∀ s ∈ leadingTexts lines, HandedOver s) →
        (run arguments read input environment).IsSessionOver o lines) ∧
      ∀ earlier later : List (List UInt8),
        ((∀ line ∈ earlier, decode? line ≠ none) → (∀ s ∈ leadingTexts earlier, HandedOver s) →
          ∃ (status : Status) (before after : String) (first last : List Notice),
            ∀ (input : List UInt8) (source : String), HandedOver source →
              Lined input (earlier ++ encoding source.toList :: later) →
                run arguments read input environment =
                  { status
                    output := before ++ render o.format (scan source).tokens ++ after
                    notices := first ++ (Transcript.ofSource (.chosen environment o.verbosity) o
                      source).notices ++ last }) ∧
        ((∃ line ∈ earlier, decode? line = none) →
          ∃ r, ∀ (input : List UInt8) (source : String),
            Lined input (earlier ++ encoding source.toList :: later) →
              run arguments read input environment = r) := by
  refine ⟨options_flags, ?_, ?_⟩
  · intro input
    exact ⟨_, lined_inputLines input, fun others lined => lined.inputLines_eq.symm⟩
  · intro arguments o asked noFile
    have runs {input : List UInt8} {lines : List (List UInt8)} (lined : Lined input lines) :
        run arguments read input environment = runLines (.chosen environment o.verbosity) o lines :=
      run_eq_runLines asked noFile read lined environment
    generalize Filter.chosen environment o.verbosity = filter at runs ⊢
    refine ⟨?_, fun earlier later => ⟨?_, ?_⟩⟩
    · intro input lines lined handed
      rw [runs lined]
      exact isSessionOver_runLines filter o lined.lineEnd_not_mem handed
    · intro texts handed
      have success : (runLines filter o earlier).status = .success := by
        rw [runLines_eq filter o handed, if_pos (all_isText_iff.mpr texts)]
      refine ⟨(runLines filter o later).status, (runLines filter o earlier).output,
        (runLines filter o later).output, (runLines filter o earlier).notices,
        (runLines filter o later).notices, ?_⟩
      intro input source typed lined
      rw [HandedOver] at typed
      rw [runs lined, runLines_append, if_pos success, runLines, typed]
      dsimp only
      rw [String.append_assoc, List.append_assoc]
      rfl
    · intro noText
      refine ⟨runLines filter o earlier, ?_⟩
      intro input source lined
      rw [runs lined, runLines_append, if_neg (status_runLines_ne_success filter o noText)]

/-- An unclosed string, a comment in front of a carriage return, a byte that is no text, and a line
that is not reached. The first line has a block of its own, and the last one has none. -/
theorem run_over_lines_unreached :
    let read : String → Except ReadFailure (List UInt8) := fun _ => .error .missing
    let o : Options := { format := .json }
    let lines : List (List UInt8) := [[34], [47, 47, 64], [255], [49]]
    let input := [34] ++ lineEnd :: ([47, 47, 64] ++ 13 :: lineEnd :: ([255] ++ lineEnd :: [49]))
    options ["--format=json"] = .ok o ∧ Lined input lines ∧
      (∀ s ∈ leadingTexts lines, HandedOver s) ∧ (∃ line ∈ lines, decode? line = none) ∧
      (run ["--format=json"] read input).IsSessionOver o lines ∧
      (∃ before after, ∀ (input : List UInt8) (source : String), HandedOver source →
        Lined input (encoding source.toList :: [[47, 47, 64], [255], [49]]) →
          (run ["--format=json"] read input).output =
            before ++ render .json (scan source).tokens ++ after) ∧
      ∃ r, ∀ (input : List UInt8) (source : String),
        Lined input ([[34], [47, 47, 64], [255]] ++ [encoding source.toList]) →
          run ["--format=json"] read input = r := by
  intro read o lines input
  have asked : options ["--format=json"] = .ok o := rfl
  have lined : Lined input lines :=
    .feed (by decide) (by decide) (.returnFeed (by decide) (.feed (by decide) (by decide)
      (.unended (by decide) (by decide))))
  have texts : leadingTexts lines = ["\"", "//@"] := by decide +kernel
  have handed : ∀ s ∈ leadingTexts lines, HandedOver s := by
    rw [texts]
    intro s member
    refine handedOver_of_not_mem ?_
    revert s
    decide
  have noText : decode? [255] = none := by decide +kernel
  obtain ⟨session, replaced⟩ := (run_over_lines read none).2.2 _ o asked rfl
  obtain ⟨status, before, after, first, last, block⟩ :=
    (replaced [] [[47, 47, 64], [255], [49]]).1 (by simp) (by simp [leadingTexts])
  refine ⟨asked, lined, handed, ⟨[255], by decide, noText⟩, session input lines lined handed,
    ⟨before, after, ?_⟩, (replaced [[34], [47, 47, 64], [255]] []).2 ⟨[255], by decide, noText⟩⟩
  intro input source typed lined
  rw [block input source typed lined]

end LoxLexer.CommandLine
