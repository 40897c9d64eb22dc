-- SUMMARY: A run over a file: what it writes and how it ends, and that neither flags nor the environment change output, status or diagnostics.
import Mathlib.Data.List.Basic
import LoxLexer.Proofs.Flags
import LoxLexer.Proofs.Trace

/-!
# Runs over a file

A file that is a text is scanned once. The rendering of all its tokens is the output, its faults
decide on the status, and each of them is reported on a line. Detailed reports come behind all that,
and a log only in between; neither changes anything else. A file that cannot be read or is no text
leaves nothing but a notice of that. How files are read does not matter; a directory of files is one
way.
-/

namespace LoxLexer.CommandLine

/-! ## Results -/

/-- What a run in this environment, with these options, leaves behind if the file is this text. -/
structure Result.IsScanOf (r : Result) (environment : Option Filter) (o : Options)
    (path source : String) : Prop where
  output : r.output = render o.format (scan source).tokens
  status : r.status.code = if (scan source).hasFault then 65 else 0
  diagnostics : r.diagnostics.map Diagnostic.text =
    (scan source).faults.map fun f => "[line " ++ toString f.line ++ "] Error : " ++ f.message
  /-- Detailed reports stand behind all else, and point into the text of the file. The rest is the
  log and the diagnostics. -/
  notices : ∃ scanned,
    unlogged scanned = (scan source).faults.map (fun f => .diagnostic f.diagnostic) ∧
    r.notices = scanned ++
      if o.fancy then (scan source).faults.map fun f => .detail (f.attach ⟨path, source⟩) else []
  /-- Unless a log is asked for, by a flag or by the environment, this is all that is written. -/
  quiet : environment = none → o.verbosity = 0 → ∀ w : Wording, r.errorText w =
    String.join ((scan source).faults.map fun f =>
      "[line " ++ toString f.line ++ "] Error : " ++ f.message ++ "\n") ++
    if o.fancy then
      String.join ((scan source).faults.map fun f => w.report (f.attach ⟨path, source⟩) ++ "\n")
    else ""

/-- What a run leaves behind that has nothing to scan. -/
structure Result.IsRefusal (r : Result) : Prop where
  output : r.output = ""
  status : r.status.code = 1
  diagnostics : r.diagnostics = []

/-- Two results with nothing but the log and detailed reports to tell them apart. -/
structure Result.Alike (r s : Result) : Prop where
  output : r.output = s.output
  status : r.status = s.status
  diagnostics : r.diagnostics = s.diagnostics

/-- Only log lines are worded by where they stand. -/
theorem mapIdx_text_of_unlogged (w : Wording) {notices : List Notice}
    (none : unlogged notices = notices) :
    notices.mapIdx (Notice.text w) = notices.map (Notice.text w 0) := by
  have same (n : Notice) (member : n ∈ notices) (i : Nat) : n.text w i = n.text w 0 := by
    have noLog := List.filter_eq_self.mp none n member
    cases n with
    | log level bytes e => cases noLog
    | _ => rfl
  refine List.ext_getElem (by simp) fun i _ _ => ?_
  rw [List.getElem_mapIdx, List.getElem_map]
  exact same _ (List.getElem_mem _) i

section Details

variable {fancy : Bool} {text : NamedText} {faults : List Fault}

theorem eq_detail_of_mem {n : Notice}
    (member : n ∈ if fancy then faults.map fun f => Notice.detail (f.attach text) else []) :
    ∃ f, n = .detail f := by
  split at member
  · obtain ⟨f, -, rfl⟩ := List.mem_map.mp member
    exact ⟨_, rfl⟩
  · cases member

/-- Detailed reports are no diagnostics. -/
theorem filterMap_diagnostic_details :
    (if fancy then faults.map fun f => Notice.detail (f.attach text) else []).filterMap
      Notice.diagnostic? = [] := by
  refine List.filterMap_eq_nil_iff.mpr fun n member => ?_
  obtain ⟨f, rfl⟩ := eq_detail_of_mem member
  rfl

end Details

section File

variable (filter : Filter) (o : Options) (path : String)

section Text

variable {input : List UInt8} {source : String} (valid : decode? input = some source)

include valid

theorem runFile_eq : runFile filter o path (.ok input) =
    { status := if (scan source).faults = [] then .success else .faulty
      output := render o.format (scan source).tokens
      notices := (Transcript.ofSource filter o source).notices ++
        if o.fancy then (scan source).faults.map fun f => .detail (f.attach ⟨path, source⟩)
        else [] } := by
  rw [runFile, valid]
  rfl

theorem output_runFile :
    (runFile filter o path (.ok input)).output = render o.format (scan source).tokens := by
  rw [runFile_eq filter o path valid]

theorem diagnostics_runFile :
    (runFile filter o path (.ok input)).diagnostics = reports source := by
  rw [runFile_eq filter o path valid, Result.diagnostics, List.filterMap_append,
    Transcript.filterMap_diagnostic_notices, filterMap_diagnostic_details, List.append_nil]

theorem status_runFile : (runFile filter o path (.ok input)).status.code =
    if (scan source).hasFault then 65 else 0 := by
  rw [runFile_eq filter o path valid, Outcome.hasFault]
  cases (scan source).faults <;> rfl

/-- With a log of warnings only, what is written are the diagnostics and the detailed reports. -/
theorem errorText_runFile_warn (w : Wording) : (runFile .warn o path (.ok input)).errorText w =
    String.join ((scan source).faults.map fun f =>
      "[line " ++ toString f.line ++ "] Error : " ++ f.message ++ "\n") ++
    if o.fancy then
      String.join ((scan source).faults.map fun f => w.report (f.attach ⟨path, source⟩) ++ "\n")
    else "" := by
  have line (f : Fault) : Notice.text w 0 (.diagnostic f.diagnostic) =
      "[line " ++ toString f.line ++ "] Error : " ++ f.message ++ "\n" :=
    congrArg (· ++ "\n") f.text_diagnostic
  rw [runFile_eq .warn o path valid, Transcript.notices_warn, Result.errorText, reports_eq]
  rw [mapIdx_text_of_unlogged]
  case none =>
    refine List.filter_eq_self.mpr fun n member => ?_
    rcases List.mem_append.mp member with diagnostic | detail
    · obtain ⟨d, -, rfl⟩ := List.mem_map.mp diagnostic
      rfl
    · obtain ⟨f, rfl⟩ := eq_detail_of_mem detail
      rfl
  rw [List.map_append, String.join_append, List.map_map, List.map_map]
  refine congrArg₂ (· ++ ·) ?_ ?_
  · exact congrArg String.join (List.map_congr_left fun f _ => line f)
  · split
    · rw [List.map_map]
      rfl
    · rfl

end Text

/-- Without a text nothing is scanned. -/
theorem isRefusal_runFile {content : Except ReadFailure (List UInt8)}
    (unread : ∀ bytes, content = .ok bytes → decode? bytes = none) :
    (runFile filter o path content).IsRefusal := by
  cases content with
  | error cause => exact ⟨rfl, rfl, rfl⟩
  | ok bytes =>
      rw [runFile, unread bytes rfl]
      exact ⟨rfl, rfl, rfl⟩

/-- Of the options only the format matters to the output, the status and the diagnostics, and the
filter of the log does not. -/
theorem alike_runFile (other : Filter) {p : Options} (format : p.format = o.format)
    (content : Except ReadFailure (List UInt8)) :
    (runFile filter o path content).Alike (runFile other p path content) := by
  cases content with
  | error cause => exact ⟨rfl, rfl, rfl⟩
  | ok bytes =>
      cases valid : decode? bytes with
      | none =>
          rw [runFile, runFile, valid]
          exact ⟨rfl, rfl, rfl⟩
      | some source =>
          constructor
          case output => rw [output_runFile _ _ _ valid, output_runFile _ _ _ valid, format]
          case status => rw [runFile_eq _ _ _ valid, runFile_eq _ _ _ valid]
          case diagnostics => rw [diagnostics_runFile _ _ _ valid, diagnostics_runFile _ _ _ valid]

end File

theorem isScanOf_runFile (environment : Option Filter) (o : Options) (path : String)
    {input : List UInt8} {source : String} (valid : decode? input = some source) :
    (runFile (.chosen environment o.verbosity) o path (.ok input)).IsScanOf environment o path
      source where
  output := output_runFile _ o path valid
  status := status_runFile _ o path valid
  diagnostics := by
    rw [diagnostics_runFile _ o path valid, reports_eq, List.map_map]
    exact List.map_congr_left fun f _ => f.text_diagnostic
  notices := by
    refine ⟨(Transcript.ofSource (.chosen environment o.verbosity) o source).notices, ?_,
      by rw [runFile_eq _ o path valid]⟩
    rw [Transcript.unlogged_notices, reports_eq, List.map_map]
    rfl
  quiet := by
    rintro rfl quiet w
    rw [quiet]
    exact errorText_runFile_warn o path valid w

/-! ## The program -/

section Program

variable {arguments : List String} {o : Options} {path : String}

/-- A command line that names a file runs over what is read there. -/
theorem run_eq_runFile (asked : options arguments = .ok o) (file : o.file = some path)
    (read : String → Except ReadFailure (List UInt8)) (input : List UInt8)
    (environment : Option Filter) : run arguments read input environment =
      runFile (.chosen environment o.verbosity) o path (read path) := by
  rw [run, asked]
  dsimp only
  rw [file]

/-- In a directory that holds the file, its name leads to it. -/
theorem isScanOf_run_directory (asked : options arguments = .ok o) (file : o.file = some path)
    {d : Directory} (name : Directory.IsName path) {bytes : List UInt8}
    (held : d.files.lookup path = some bytes) {source : String} (valid : decode? bytes = some source)
    (environment : Option Filter) :
    (run arguments d.read d.input environment).IsScanOf environment o path source := by
  rw [run_eq_runFile asked file, d.read_name name, held]
  exact isScanOf_runFile environment o path valid

/-- In a directory that holds no such file, a run is refused, and says so. -/
theorem run_directory_missing (asked : options arguments = .ok o) (file : o.file = some path)
    {d : Directory} (name : Directory.IsName path) (missing : d.files.lookup path = none)
    (environment : Option Filter) : run arguments d.read d.input environment =
      ⟨.failed, "", [.failure (.sourceFile path .missing)]⟩ := by
  rw [run_eq_runFile asked file, d.read_name name, missing]
  rfl

end Program

/-- Whatever the flags, a file that is a text is scanned and rendered as a whole, its faults decide
on the status and are reported, and detailed reports only come behind that; a file that cannot be
read, or is no text, leaves no output and no diagnostics. Flags other than the format make no
difference to the output, the status and the diagnostics, and neither does the environment. -/
theorem run_over_file (read : String → Except ReadFailure (List UInt8)) (input : List UInt8) :
    (∀ (format : Format) (fancy : Bool) (times : Nat) (path : String), path ≠ "" →
      options (flags format fancy times ++ ["--", path]) =
        .ok { file := some path, format, fancy, verbosity := .ofNat (min times 255) }) ∧
    ∀ (arguments : List String) (o : Options) (path : String) (environment : Option Filter),
      options arguments = .ok o → o.file = some path →
        (∀ bytes source, read path = .ok bytes → decode? bytes = some source →
          (run arguments read input environment).IsScanOf environment o path source) ∧
        ((∀ bytes, read path = .ok bytes → decode? bytes = none) →
          (run arguments read input environment).IsRefusal) ∧
        ∀ (others : List String) (p : Options), options others = .ok p → p.file = o.file →
          p.format = o.format →
            (∀ environment' : Option Filter, (run arguments read input environment).Alike
              (run others read input environment')) ∧
            ∀ bytes source, read path = .ok bytes → decode? bytes = some source →
              o.fancy = false → p = { o with fancy := true } →
                (run others read input environment).notices =
                  (run arguments read input environment).notices ++
                    (scan source).faults.map fun f => .detail (f.attach ⟨path, source⟩) := by
  refine ⟨fun format fancy times path => options_flags_file format fancy times, ?_⟩
  intro arguments o path environment asked file
  rw [run_eq_runFile asked file]
  refine ⟨?_, isRefusal_runFile _ o path, ?_⟩
  · intro bytes source content valid
    rw [content]
    exact isScanOf_runFile environment o path valid
  · intro others p asked' file' format
    refine ⟨?_, ?_⟩
    · intro environment'
      rw [run_eq_runFile asked' (file'.trans file)]
      exact alike_runFile _ o path _ format _
    · rintro bytes source content valid plain rfl
      rw [run_eq_runFile asked' (file'.trans file), content, runFile_eq _ o path valid,
        runFile_eq _ _ path valid, plain]
      exact congrArg (· ++ _) (List.append_nil _).symm

/-- A directory with a source that has a stray character, a number and an unclosed string, and with a
file that is no text. In the last run the environment asks for a log. -/
theorem run_over_file_flags :
    let d : Directory := ⟨[("a.lox", [64, 49, 34]), ("b.lox", [49, 255])], []⟩
    let plain : Options := { file := some "a.lox", verbosity := 2 }
    let fancy : Options := { plain with fancy := true }
    let logged := run ["-vv", "a.lox"] d.read d.input
    let detailed := run ["a.lox", "-v", "--fancy", "-v"] d.read d.input
    let quiet := run ["a.lox"] d.read d.input
    let refused := run ["b.lox"] d.read d.input (some .trace)
    (options ["-vv", "a.lox"] = .ok plain ∧
      options ["a.lox", "-v", "--fancy", "-v"] = .ok fancy ∧
      options ["a.lox"] = .ok { file := some "a.lox" } ∧
      options ["b.lox"] = .ok { file := some "b.lox" }) ∧
    (d.read "a.lox" = .ok [64, 49, 34] ∧ decode? [64, 49, 34] = some "@1\"") ∧
    (d.read "b.lox" = .ok [49, 255] ∧ decode? [49, 255] = none) ∧
    (logged.output = "NUMBER 1 1\nEOF  null\n" ∧ logged.status.code = 65 ∧
      logged.diagnostics.map Diagnostic.text =
        ["[line 1] Error : Unexpected Character @", "[line 1] Error : Unterminated Text"]) ∧
    logged.Alike detailed ∧
    detailed.notices = logged.notices ++
      [.detail ⟨.stray '@', 1, ⟨0, 1⟩, ⟨"a.lox", "@1\""⟩⟩,
        .detail ⟨.unclosed, 1, ⟨2, 1⟩, ⟨"a.lox", "@1\""⟩⟩] ∧
    quiet.errorText =
      "[line 1] Error : Unexpected Character @\n[line 1] Error : Unterminated Text\n" ∧
    refused.output = "" ∧ refused.status.code = 1 ∧ refused.diagnostics = [] := by
  intro d plain fancy logged detailed quiet refused
  have asked : options ["-vv", "a.lox"] = .ok plain := rfl
  have asked' : options ["a.lox", "-v", "--fancy", "-v"] = .ok fancy := rfl
  have unasked : options ["a.lox"] = .ok { file := some "a.lox" } := rfl
  have other : options ["b.lox"] = .ok { file := some "b.lox" } := rfl
  have held : d.read "a.lox" = .ok [64, 49, 34] := d.read_name (by decide)
  have held' : d.read "b.lox" = .ok [49, 255] := d.read_name (by decide)
  have valid : decode? [64, 49, 34] = some "@1\"" := by decide +kernel
  have noText : decode? [49, 255] = none := by decide +kernel
  have rendered : render .text (scan "@1\"").tokens = "NUMBER 1 1\nEOF  null\n" := by decide +kernel
  have faults : (scan "@1\"").faults = [⟨.stray '@', 1, ⟨0, 1⟩, ⟨"input", ""⟩⟩,
      ⟨.unclosed, 1, ⟨2, 1⟩, ⟨"input", ""⟩⟩] := by decide +kernel
  obtain ⟨scanned, -, flags⟩ := (run_over_file d.read d.input).2 _ plain "a.lox" none asked rfl
  obtain ⟨alike, details⟩ := flags _ fancy asked' rfl rfl
  obtain ⟨brief, -, -⟩ := (run_over_file d.read d.input).2 _ _ "a.lox" none unasked rfl
  obtain ⟨-, refusal, -⟩ := (run_over_file d.read d.input).2 _ _ "b.lox" (some .trace) other rfl
  have noScan : refused.IsRefusal := by
    apply refusal
    rintro bytes content
    rw [held'] at content
    cases content
    exact noText
  refine ⟨⟨asked, asked', unasked, other⟩, ⟨held, valid⟩, ⟨held', noText⟩, ⟨?_, ?_, ?_⟩, alike none,
    ?_, ?_, noScan.output, noScan.status, noScan.diagnostics⟩
  · exact (scanned _ _ held valid).output.trans rendered
  · rw [(scanned _ _ held valid).status, Outcome.hasFault, faults]
    rfl
  · rw [(scanned _ _ held valid).diagnostics, faults]
    decide
  · rw [details _ _ held valid rfl rfl, faults]
    rfl
  · rw [(brief _ _ held valid).quiet rfl rfl, faults]
    decide

end LoxLexer.CommandLine
