-- SUMMARY: The events of a scan are its tokens and faults merged by offset, and a run writes of them what the filter of its log shows.
import LoxLexer.Proofs.FileRun
import LoxLexer.Proofs.SessionRun
import LoxLexer.Proofs.Tiling

/-!
# The log at its levels

A scan keeps its tokens apart from its faults, and only its events show in which order they were
found. It is the order of their offsets: what happens is what happens for each token and fault of
the merged lists, and then the end, which has their numbers. A run that logs everything writes a
notice for every event. A run that logs less writes the same notices without the lines of the log
that its filter does not show; the filter is that of the environment only if no flag asks for a log.
-/

namespace LoxLexer

/-! ## Findings -/

namespace Finding

def token? : Finding → Option Token
  | token t => some t
  | fault _ => none

def fault? : Finding → Option Fault
  | token _ => none
  | fault f => some f

def span : Finding → Span
  | token t => t.span
  | fault f => f.span

/-- What happens when something is found. -/
def events : Finding → List Event
  | token t => [.token t]
  | fault f => [.fault f, .report f.diagnostic]

def IsBefore (a b : Finding) : Prop := a.span.offset < b.span.offset

/-- Tokens and faults in one list, by offset. -/
def merge (tokens : List Token) (faults : List Fault) : List Finding :=
  List.merge (tokens.map token) (faults.map fault) fun a b => a.span.offset ≤ b.span.offset

theorem merge_cons_token {t : Token} {faults : List Fault}
    (first : ∀ f ∈ faults, t.span.offset ≤ f.span.offset) (tokens : List Token) :
    merge (t :: tokens) faults = token t :: merge tokens faults := by
  cases faults with
  | nil => rw [merge, merge, List.map_nil, List.merge_right, List.merge_right, List.map_cons]
  | cons f faults =>
      have le : t.span.offset ≤ f.span.offset := first f List.mem_cons_self
      exact List.cons_merge_cons_pos _ _ _ (decide_eq_true le)

theorem merge_cons_fault {f : Fault} {tokens : List Token}
    (first : ∀ t ∈ tokens, f.span.offset < t.span.offset) (faults : List Fault) :
    merge tokens (f :: faults) = fault f :: merge tokens faults := by
  cases tokens with
  | nil => rw [merge, merge, List.map_nil, List.nil_merge, List.nil_merge, List.map_cons]
  | cons t tokens =>
      have lt : f.span.offset < t.span.offset := first t List.mem_cons_self
      refine List.cons_merge_cons_neg _ _ _ fun le => ?_
      exact absurd (of_decide_eq_true le) (Nat.not_le_of_lt lt)

section Merged

variable {found : List Finding}

theorem mem_of_token {t : Token} (member : t ∈ found.filterMap token?) : token t ∈ found := by
  obtain ⟨x, among, has⟩ := List.mem_filterMap.mp member
  cases x with
  | token u =>
      cases has
      exact among
  | fault f => cases has

theorem mem_of_fault {f : Fault} (member : f ∈ found.filterMap fault?) : fault f ∈ found := by
  obtain ⟨x, among, has⟩ := List.mem_filterMap.mp member
  cases x with
  | token t => cases has
  | fault g =>
      cases has
      exact among

/-- Findings that ascend are what their tokens and faults merge to. -/
theorem merge_of_ascend (ascend : found.Pairwise IsBefore) :
    merge (found.filterMap token?) (found.filterMap fault?) = found := by
  induction found with
  | nil => exact List.merge_right _
  | cons x found ih =>
      obtain ⟨first, others⟩ := List.pairwise_cons.mp ascend
      cases x with
      | token t =>
          change merge (t :: found.filterMap token?) (found.filterMap fault?) = _
          rw [merge_cons_token, ih others]
          exact fun f member => Nat.le_of_lt (first _ (mem_of_fault member))
      | fault f =>
          change merge (found.filterMap token?) (f :: found.filterMap fault?) = _
          rw [merge_cons_fault, ih others]
          exact fun t member => first _ (mem_of_token member)

end Merged

end Finding

/-- All that an outcome has but the end of input, by offset. -/
def Outcome.findings (o : Outcome) : List Finding :=
  Finding.merge (o.tokens.filter (·.kind ≠ .eof)) o.faults

/-! ## Findings of parts -/

namespace Part

/-- What is found of a part that begins at a place. -/
def finding? (place : Position) (p : Part) : Option Finding := p.piece.finding? place

variable {parts : List Part} (place : Position) (p : Part)

theorem bind_finding?_token? : (p.finding? place).bind Finding.token? = p.token? place := by
  have meaning := p.meaning_piece
  cases p <;>
    simp [finding?, Piece.finding?, meaning, Part.meaning, token?, Finding.token?, Part.text,
      Lexeme.spelling]

theorem bind_finding?_fault? : (p.finding? place).bind Finding.fault? = p.fault? place := by
  have meaning := p.meaning_piece
  cases p <;>
    simp [finding?, Piece.finding?, meaning, Part.meaning, fault?, Finding.fault?, Part.text]

theorem events_finding? : p.events place = (p.finding? place).toList.flatMap Finding.events := by
  rw [events, ← bind_finding?_token?, ← bind_finding?_fault?]
  cases p.finding? place with
  | none => rfl
  | some x => cases x <;> rfl

variable {place p}

theorem span_of_finding? {x : Finding} (found : p.finding? place = some x) :
    x.span = place.span p.text := by
  have token := p.bind_finding?_token? place
  have fault := p.bind_finding?_fault? place
  rw [found] at token fault
  cases x with
  | token t => exact (eq_of_token? token.symm).1
  | fault f => exact (eq_of_fault? fault.symm).1

theorem findings_ascend :
    ((located .start parts).filterMap fun (place, p) => p.finding? place).Pairwise
      Finding.IsBefore := by
  apply pairwise_filterMap_located
  intro place p between q x y foundx foundy
  rw [Finding.IsBefore, span_of_finding? foundx, span_of_finding? foundy]
  exact offset_lt_of_after place p between q.text

theorem findings_outcome : (outcome parts).findings =
    (located .start parts).filterMap fun (place, p) => p.finding? place := by
  refine Eq.trans ?_ (Finding.merge_of_ascend findings_ascend)
  rw [Outcome.findings, List.filterMap_filterMap, List.filterMap_filterMap]
  simp only [bind_finding?_token?, bind_finding?_fault?]
  exact congrArg (Finding.merge · _) filter_kind_ne_eof

end Part

/-! ## Traces -/

section Findings

variable (source : String)

theorem scan_findings_ascend : (scan source).findings.Pairwise Finding.IsBefore := by
  obtain ⟨parts, divided, split⟩ := exists_divided source.toList
  rw [scan_eq_outcome divided split, Part.findings_outcome]
  exact Part.findings_ascend

/-- Nothing but the end of input is left out. -/
theorem scan_tokens_eq : (scan source).tokens =
    (scan source).findings.filterMap Finding.token? ++
      [Token.eof (Position.start.after source.toList)] := by
  obtain ⟨parts, divided, split⟩ := exists_divided source.toList
  rw [scan_eq_outcome divided split, Part.findings_outcome, List.filterMap_filterMap, ← split]
  simp only [Part.bind_finding?_token?]
  rfl

theorem scan_faults_eq : (scan source).faults = (scan source).findings.filterMap Finding.fault? := by
  obtain ⟨parts, divided, split⟩ := exists_divided source.toList
  rw [scan_eq_outcome divided split, Part.findings_outcome, List.filterMap_filterMap]
  simp only [Part.bind_finding?_fault?]
  rfl

end Findings

namespace Event

def token? : Event → Option Token
  | token t => some t
  | fault _ | report _ | complete .. => none

def fault? : Event → Option Fault
  | fault f => some f
  | token _ | report _ | complete .. => none

end Event

/-- All that happens in the scan of a source. -/
def trace (source : String) : List Event := (Scan.run .silent () source).events.toList

/-- These are the events of a scan of the source, told from its outcome. -/
structure IsTrace (source : String) (events : List Event) : Prop where
  /-- Tokens and faults have their events by offset, and the end comes with the numbers of these. -/
  merged : events = (scan source).findings.flatMap Finding.events ++
    [.complete ((events.filterMap Event.token?).length + 1) (events.filterMap Event.fault?).length
      (1 + lineBreaks source.toList)]
  ascend : (scan source).findings.Pairwise Finding.IsBefore
  tokens : (scan source).tokens =
    events.filterMap Event.token? ++ [Token.eof (Position.start.after source.toList)]
  faults : (scan source).faults = events.filterMap Event.fault?
  reports : events.filterMap Event.diagnostic? = (scan source).faults.map Fault.diagnostic

theorem Scan.events_run_eq {σ : Type} (reporter : Reporter σ) (state : σ) (source : String) :
    (run reporter state source).events.toList = (scan source).findings.flatMap Finding.events ++
      [.complete (scan source).tokens.length (scan source).faults.length
        (1 + lineBreaks source.toList)] := by
  obtain ⟨parts, divided, split⟩ := exists_divided source.toList
  have findings : (scan source).findings = _ :=
    (congrArg Outcome.findings (scan_eq_outcome divided split)).trans Part.findings_outcome
  rw [events_run reporter state divided split, findings, List.filterMap_eq_flatMap_toList,
    List.flatMap_assoc]
  simp only [Part.events_finding?]

/-- What is looked for in events is found in the findings they belong to. -/
theorem Finding.filterMap_events {α : Type} {shows : Event → Option α} {has : Finding → Option α}
    (each : ∀ x, x.events.filterMap shows = (has x).toList) (found : List Finding) :
    (found.flatMap events).filterMap shows = found.filterMap has := by
  rw [List.filterMap_flatMap, List.filterMap_eq_flatMap_toList]
  simp only [each]

theorem isTrace_trace (source : String) : IsTrace source (trace source) := by
  have events : trace source = _ := Scan.events_run_eq .silent () source
  have tokens : (scan source).tokens = (trace source).filterMap Event.token? ++
      [Token.eof (Position.start.after source.toList)] := by
    have each (x : Finding) : x.events.filterMap Event.token? = x.token?.toList := by
      cases x <;> rfl
    rw [scan_tokens_eq, ← Finding.filterMap_events each, events, List.filterMap_append]
    exact congrArg (· ++ _) (List.append_nil _).symm
  have faults : (scan source).faults = (trace source).filterMap Event.fault? := by
    have each (x : Finding) : x.events.filterMap Event.fault? = x.fault?.toList := by
      cases x <;> rfl
    rw [scan_faults_eq, ← Finding.filterMap_events each, events, List.filterMap_append]
    exact (List.append_nil _).symm
  have number : (scan source).tokens.length = ((trace source).filterMap Event.token?).length + 1 := by
    rw [tokens, List.length_append, List.length_singleton]
  constructor
  case merged => rw [← number, ← faults, events]
  case ascend => exact scan_findings_ascend source
  case tokens => exact tokens
  case faults => exact faults
  case reports => rw [trace, Scan.filterMap_diagnostic_events, reports_eq]

/-! ## Notices -/

namespace CommandLine

namespace Notice

/-- The notice of an event in the scan of so many bytes if everything is logged. -/
def ofEvent (bytes : Nat) : Event → Notice
  | .token t => .log .trace bytes (.token t)
  | .fault f => .log .debug bytes (.fault f)
  | .report d => .diagnostic d
  | .complete tokens faults lines => .log .debug bytes (.complete tokens faults lines)

/-- The level of a notice, if it is a line of the log. -/
def level? : Notice → Option Level
  | .log level .. => some level
  | .diagnostic _ | .detail _ | .failure _ | .usage _ => none

/-- Whether a notice is written if the log has this filter. -/
def isShown (filter : Filter) : Notice → Bool
  | .log level bytes e => filter.shows level bytes e
  | .diagnostic _ | .detail _ | .failure _ | .usage _ => true

theorem ofEvent?_eq (filter : Filter) (bytes : Nat) (e : Event) :
    ofEvent? filter bytes e = Option.guard (isShown filter) (ofEvent bytes e) := by
  cases e <;> rfl

end Notice

/-- The notices without the lines of the log that have the most detail. -/
def untraced (notices : List Notice) : List Notice := notices.filter fun n => n.level? ≠ some .trace

section Filtered

variable (notices : List Notice)

theorem filter_isShown_warn : notices.filter (Notice.isShown .warn) = unlogged notices := by
  refine List.filter_congr fun n _ => ?_
  cases n <;> rfl

theorem filter_isShown_debug : notices.filter (Notice.isShown .debug) = untraced notices := by
  refine List.filter_congr fun n _ => ?_
  cases n with
  | log level bytes e => cases level <;> rfl
  | _ => rfl

theorem filter_isShown_trace : notices.filter (Notice.isShown .trace) = notices := by
  refine List.filter_eq_self.mpr fun n _ => ?_
  cases n <;> rfl

/-- Whatever the filter of a log, it shows all that is not logged. -/
theorem unlogged_filter_isShown (filter : Filter) :
    unlogged (notices.filter (Notice.isShown filter)) = unlogged notices := by
  rw [unlogged, unlogged, List.filter_filter]
  refine List.filter_congr fun n _ => ?_
  cases n with
  | log level bytes e => exact Bool.false_and _
  | _ => rfl

end Filtered

/-! ## Runs -/

/-- Two requests for a log are as good as any more. -/
theorem chosen_of_full {verbosity : UInt8} (full : 2 ≤ verbosity) (environment : Option Filter) :
    Filter.chosen environment verbosity = .trace := by
  unfold Filter.chosen
  split
  · exact absurd full (by decide)
  · exact absurd full (by decide)
  · rfl

section Filters

variable (filter : Filter) (o : Options)

theorem Transcript.notices_eq (source : String) : (ofSource filter o source).notices =
    ((trace source).map (Notice.ofEvent source.utf8ByteSize)).filter (Notice.isShown filter) := by
  rw [← List.filterMap_eq_filter, List.filterMap_map, trace]
  exact congrArg (List.filterMap · _) (funext (Notice.ofEvent?_eq _ _))

theorem Transcript.notices_trace (source : String) : (ofSource .trace o source).notices =
    (trace source).map (Notice.ofEvent source.utf8ByteSize) := by
  rw [notices_eq, filter_isShown_trace]

/-- Detailed reports are no part of the log. -/
theorem filter_details (fancy : Bool) (text : NamedText) (faults : List Fault) :
    (if fancy then faults.map fun f => Notice.detail (f.attach text) else []).filter
        (Notice.isShown filter) =
      if fancy then faults.map fun f => .detail (f.attach text) else [] := by
  refine List.filter_eq_self.mpr fun n member => ?_
  obtain ⟨f, rfl⟩ := eq_detail_of_mem member
  rfl

variable {o} {p : Options}

/-- What a run over a file writes is what its filter leaves of what could be written. -/
theorem notices_runFile (fancy : p.fancy = o.fancy) (path : String)
    (content : Except ReadFailure (List UInt8)) : (runFile filter p path content).notices =
      (runFile .trace o path content).notices.filter (Notice.isShown filter) := by
  cases content with
  | error cause => rfl
  | ok bytes =>
      cases valid : decode? bytes with
      | none =>
          rw [runFile, runFile, valid]
          rfl
      | some source =>
          rw [runFile_eq _ p path valid, runFile_eq _ o path valid, fancy, List.filter_append,
            Transcript.notices_trace, ← Transcript.notices_eq filter p, filter_details]

theorem notices_runLines (lines : List (List UInt8)) : (runLines filter p lines).notices =
    (runLines .trace o lines).notices.filter (Notice.isShown filter) := by
  induction lines with
  | nil => rfl
  | cons line rest ih =>
      rw [runLines, runLines]
      cases readLine line with
      | error f => rfl
      | ok source =>
          dsimp only
          rw [ih, List.filter_append, Transcript.notices_trace, ← Transcript.notices_eq filter p]

/-- Of two runs that differ in the log and in the format at most, of which one logs everything, the
other writes what its filter leaves of these notices. -/
theorem notices_run {arguments others : List String} (asked : options arguments = .ok o)
    (full : 2 ≤ o.verbosity) (asked' : options others = .ok p) (file : p.file = o.file)
    (fancy : p.fancy = o.fancy) (read : String → Except ReadFailure (List UInt8))
    (input : List UInt8) (environment environment' : Option Filter) :
    (run others read input environment').notices =
      (run arguments read input environment).notices.filter
        (Notice.isShown (.chosen environment' p.verbosity)) := by
  cases named : o.file with
  | none =>
      have lined := lined_inputLines input
      rw [run_eq_runLines asked named read lined, chosen_of_full full,
        run_eq_runLines asked' (file.trans named) read lined]
      exact notices_runLines _ _
  | some path =>
      rw [run_eq_runFile asked named, chosen_of_full full, run_eq_runFile asked' (file.trans named)]
      exact notices_runFile _ fancy path _

/-- Sources that are read are traced, and the rest of the lines comes behind them. -/
theorem notices_runLines_append {lines : List (List UInt8)} {sources : List String}
    (read : lines.map readLine = sources.map .ok) (later : List (List UInt8)) :
    (runLines .trace o (lines ++ later)).notices =
      (sources.flatMap fun s => (trace s).map (Notice.ofEvent s.utf8ByteSize)) ++
        (runLines .trace o later).notices := by
  induction lines generalizing sources with
  | nil =>
      rw [List.map_eq_nil_iff.mp read.symm]
      rfl
  | cons line lines ih =>
      cases sources with
      | nil => cases read
      | cons source sources =>
          obtain ⟨first, others⟩ := List.cons.inj read
          rw [List.cons_append, runLines, first, List.flatMap_cons, List.append_assoc, ← ih others,
            ← Transcript.notices_trace o]

end Filters

/-! ## The program -/

/-- All that happens in a scan is what happens for its tokens and faults, by offset, and an end that
has their numbers. It happens whatever the reporter, which hears of what is reported. A run
that logs everything writes a notice for each event of what it scans. One that logs less writes what
is left of these notices: without the events of tokens at one level; at none, what the filter of the
environment shows, which is nothing of the log if there is no such filter. -/
theorem run_logs_trace (read : String → Except ReadFailure (List UInt8)) (input : List UInt8) :
    (∀ source, IsTrace source (trace source)) ∧
    (∀ {σ : Type} (reporter : Reporter σ) (state : σ) (source : String),
      (Scan.run reporter state source).events.toList = trace source ∧
        scanWith reporter state source =
          (scan source, ((trace source).filterMap Event.diagnostic?).foldl reporter.report state)) ∧
    ∀ (arguments : List String) (o : Options) (environment : Option Filter),
      options arguments = .ok o → 2 ≤ o.verbosity →
        (∀ path bytes source, o.file = some path → read path = .ok bytes →
          decode? bytes = some source → (run arguments read input environment).notices =
            (trace source).map (.ofEvent source.utf8ByteSize) ++
              if o.fancy then (scan source).faults.map fun f => .detail (f.attach ⟨path, source⟩)
              else []) ∧
        (o.file = none → ∀ (lines later : List (List UInt8)) (sources : List String),
          inputLines input = lines ++ later → lines.map readLine = sources.map .ok →
            (run arguments read input environment).notices =
              (sources.flatMap fun s => (trace s).map (Notice.ofEvent s.utf8ByteSize)) ++
                (runLines .trace o later).notices) ∧
        ∀ (others : List String) (p : Options) (environment' : Option Filter),
          options others = .ok p → p.file = o.file → p.fancy = o.fancy →
            (p.verbosity = 1 → (run others read input environment').notices =
              untraced (run arguments read input environment).notices) ∧
            (p.verbosity = 0 → (run others read input environment').notices =
              (run arguments read input environment).notices.filter
                (Notice.isShown (environment'.getD .warn))) ∧
            (p.verbosity = 0 → environment' = none → (run others read input environment').notices =
              unlogged (run arguments read input environment).notices) ∧
            unlogged (run others read input environment').notices =
              unlogged (run arguments read input environment).notices := by
  refine ⟨isTrace_trace, ?_, ?_⟩
  · intro σ reporter state source
    have events := Scan.events_run_eq reporter state source
    rw [← Scan.events_run_eq .silent ()] at events
    refine ⟨events, ?_⟩
    rw [scanWith_eq, (isTrace_trace source).reports]
  · intro arguments o environment asked full
    refine ⟨?_, ?_, ?_⟩
    · intro path bytes source file content valid
      rw [run_eq_runFile asked file, chosen_of_full full, content, runFile_eq _ o path valid,
        Transcript.notices_trace]
    · intro noFile lines later sources split readable
      rw [run_eq_runLines asked noFile read (lined_inputLines input), chosen_of_full full, split]
      exact notices_runLines_append readable later
    · intro others p environment' asked' file fancy
      have shown := notices_run asked full asked' file fancy read input environment environment'
      refine ⟨fun one => ?_, fun zero => ?_, fun zero none => ?_, ?_⟩
      · rw [shown, one]
        exact filter_isShown_debug _
      · rw [shown, zero]
        rfl
      · rw [shown, zero, none]
        exact filter_isShown_warn _
      · rw [shown, unlogged_filter_isShown]

/-- A source with a stray character, a number and an unclosed string, in runs that log everything,
that log less, and that leave the log to the environment; and a session in which a line that is no
text follows one with a stray character. -/
theorem run_logs_trace_levels :
    let d : Directory := ⟨[("a.lox", [64, 49, 34])], [64, 10, 255]⟩
    let stray : Fault := { cause := .stray '@', line := 1, span := ⟨0, 1⟩ }
    let one : Token := ⟨.number, "1", some (.number (.ofBits 0x3FF0000000000000)), 1, ⟨1, 1⟩⟩
    let unclosed : Fault := { cause := .unclosed, line := 1, span := ⟨2, 1⟩ }
    let brief : List Notice := [.log .debug 3 (.fault stray), .diagnostic stray.diagnostic,
      .log .debug 3 (.fault unclosed), .diagnostic unclosed.diagnostic,
      .log .debug 3 (.complete 2 2 1)]
    (options ["-vv", "a.lox"] = .ok { file := some "a.lox", verbosity := 2 } ∧
      options ["-v", "a.lox"] = .ok { file := some "a.lox", verbosity := 1 } ∧
      options ["a.lox"] = .ok { file := some "a.lox" } ∧
      options ["-vvv"] = .ok { verbosity := 3 }) ∧
    (d.read "a.lox" = .ok [64, 49, 34] ∧ decode? [64, 49, 34] = some "@1\"") ∧
    (run ["-vv", "a.lox"] d.read d.input).notices =
      [.log .debug 3 (.fault stray), .diagnostic stray.diagnostic, .log .trace 3 (.token one),
        .log .debug 3 (.fault unclosed), .diagnostic unclosed.diagnostic,
        .log .debug 3 (.complete 2 2 1)] ∧
    (run ["-v", "a.lox"] d.read d.input).notices = brief ∧
    (run ["a.lox"] d.read d.input (some .debug)).notices = brief ∧
    (run ["a.lox"] d.read d.input).notices =
      [.diagnostic stray.diagnostic, .diagnostic unclosed.diagnostic] ∧
    (run ["-vvv"] d.read d.input).notices =
      [.log .debug 1 (.fault stray), .diagnostic stray.diagnostic, .log .debug 1 (.complete 1 1 1),
        .failure .inputLine] := by
  intro d stray one unclosed brief
  have asked : options ["-vv", "a.lox"] = .ok { file := some "a.lox", verbosity := 2 } := rfl
  have once : options ["-v", "a.lox"] = .ok { file := some "a.lox", verbosity := 1 } := rfl
  have unasked : options ["a.lox"] = .ok { file := some "a.lox" } := rfl
  have session : options ["-vvv"] = .ok { verbosity := 3 } := rfl
  have held : d.read "a.lox" = .ok [64, 49, 34] := d.read_name (by decide)
  have valid : decode? [64, 49, 34] = some "@1\"" := by decide +kernel
  have size : "@1\"".utf8ByteSize = 3 ∧ "@".utf8ByteSize = 1 := by decide
  have events : trace "@1\"" = [.fault stray, .report stray.diagnostic, .token one, .fault unclosed,
      .report unclosed.diagnostic, .complete 2 2 1] := by decide +kernel
  have event : trace "@" = [.fault stray, .report stray.diagnostic, .complete 1 1 1] := by
    decide +kernel
  have written : encoding "@".toList = [64] := by decide +kernel
  have handed : HandedOver "@" := handedOver_of_not_mem (by decide)
  rw [HandedOver, written] at handed
  have noText : decode? [255] = none := by decide +kernel
  obtain ⟨-, -, levels⟩ := run_logs_trace d.read d.input
  obtain ⟨scanned, -, less⟩ := levels _ _ none asked (by decide)
  obtain ⟨-, lines, -⟩ := levels _ _ none session (by decide)
  have full := scanned "a.lox" _ _ rfl held valid
  rw [events, size.1] at full
  refine ⟨⟨asked, once, unasked, session⟩, ⟨held, valid⟩, full, ?_, ?_, ?_, ?_⟩
  · rw [(less _ _ none once rfl rfl).1 rfl, full]
    rfl
  · rw [(less _ _ (some .debug) unasked rfl rfl).2.1 rfl, full]
    rfl
  · rw [(less _ _ none unasked rfl rfl).2.2.1 rfl rfl, full]
    rfl
  · rw [lines rfl [[64]] [[255]] ["@"] (by decide) (congrArg (fun source => [source]) handed),
      runLines, readLine, noText, List.flatMap_singleton, event, size.2]
    rfl

end CommandLine

end LoxLexer
