-- SUMMARY: A source whose strings are closed on every line has the records and the diagnostics of its lines.
import Mathlib.Data.List.Basic
import LoxLexer.Proofs.InputLines
import LoxLexer.Proofs.Joining
import LoxLexer.Proofs.Listing

/-!
# Sources line by line

If no line of a source leaves a string open, each line can be scanned as a source of its own. A
carriage return at the end of a line is a blank or belongs to a comment, so it makes no difference
that the whole source has it and the line has not. Only the line numbers tell the two apart.
-/

namespace LoxLexer

/-! ## A carriage return at the end -/

/-- Closed parts and a carriage return divide into parts that are found alike. -/
theorem Divided.exists_append_return {a : List Part} (divided : Divided a)
    (closed : ∀ body, .unclosed body ∉ a) :
    ∃ b, Divided b ∧ Part.texts b = Part.texts a ++ ['\r'] ∧ (∀ body, .unclosed body ∉ b) ∧
      Part.FoundAlike b a := by
  induction a with
  | nil =>
      refine ⟨[.trivia (.blank .carriageReturn)], ⟨trivial, trivial⟩, rfl, by simp, ?_⟩
      intro α yields nothing start
      simp [Part.located, nothing]
  | cons p a ih =>
      obtain ⟨ends, divided⟩ := divided
      simp only [List.mem_cons, not_or, forall_and] at closed
      obtain ⟨first, others⟩ := closed
      -- Only a comment at the end takes the carriage return in.
      by_cases last : a = [] ∧ ∃ body, p = .trivia (.comment body)
      · obtain ⟨rfl, body, rfl⟩ := last
        have absent : '\n' ∉ body.text ++ ['\r'] := by simp [body.absent]
        refine ⟨[.trivia (.comment ⟨body.text ++ ['\r'], absent⟩)], ⟨?_, trivial⟩, ?_, by simp, ?_⟩
        · simp [Part.Ends, Trivia.Ends]
        · simp [Part.text, Trivia.text]
        · intro α yields nothing start
          simp [Part.located, nothing]
      · obtain ⟨b, divided_b, split, closed_b, same⟩ := ih divided others
        refine ⟨p :: b, ⟨?_, divided_b⟩, by simp [split], ?_, same.cons p⟩
        · rw [split]
          refine ends.append_blank .carriageReturn [] (fun body eq => first body eq.symm) ?_
          intro body comment
          exact .inl fun empty => last ⟨Part.texts_eq_nil_iff.mp empty, body, comment⟩
        · intro body member
          rcases List.mem_cons.mp member with eq | member
          · exact first body eq
          · exact closed_b body member

/-! ## One line -/

/-- What ends a line, apart from the line break. -/
def IsReturn (ending : List Char) : Prop := ending = [] ∨ ending = ['\r']

/-- A closed line and what ends it divide into parts that are found as those of the line. -/
theorem exists_divided_line {line ending : List Char} (ends : IsReturn ending)
    (closed : ∀ f ∈ (scan (String.ofList line)).faults, f.cause ≠ .unclosed) :
    ∃ parts, Divided parts ∧ Part.texts parts = line ++ ending ∧ (∀ body, .unclosed body ∉ parts) ∧
      Part.found parts = (scan (String.ofList line)).tokens.dropLast ∧
      (Part.outcome parts).faults = (scan (String.ofList line)).faults := by
  obtain ⟨a, divided, split⟩ := exists_divided line
  have scanned : scan (String.ofList line) = Part.outcome a :=
    scan_eq_outcome divided (by simp [split])
  rw [scanned] at closed ⊢
  rw [Part.dropLast_tokens]
  have closed := closed_of_faults closed
  rcases ends with rfl | rfl
  · exact ⟨a, divided, by simp [split], closed, rfl, rfl⟩
  · obtain ⟨b, divided_b, split_b, closed_b, same⟩ := divided.exists_append_return closed
    exact ⟨b, divided_b, by rw [split_b, split], closed_b, same (fun _ _ => rfl) _,
      same (fun _ _ => rfl) _⟩

/-- All that is reported about a text without line breaks is on its first line. -/
theorem line_of_mem_reports {line : String} (absent : '\n' ∉ line.toList) :
    ∀ d ∈ reports line, d.line = 1 := by
  obtain ⟨parts, divided, split⟩ := exists_divided line.toList
  rw [reports_eq, scan_eq_outcome divided split]
  intro d member
  obtain ⟨f, found, rfl⟩ := List.mem_map.mp member
  obtain ⟨before, p, after, rfl, yields⟩ := Part.mem_filterMap_located.mp found
  have none : lineBreaks (Part.texts before ++ p.text) = 0 := by
    rw [← split] at absent
    refine List.count_eq_zero.mpr fun inside => absent ?_
    rw [Part.texts_append, Part.texts_cons, ← List.append_assoc]
    exact List.mem_append_left _ inside
  change f.line = 1
  rw [(Part.eq_of_fault? yields).2, ← Position.after_append, Position.line_start_after, none]

/-- A closed line in front of other lines: what it has comes first, and the rest is a line below. -/
theorem scan_ended_line {line ending : List Char} (absent : '\n' ∉ line) (ends : IsReturn ending)
    (closed : ∀ f ∈ (scan (String.ofList line)).faults, f.cause ≠ .unclosed) (rest : List Char) :
    let joined := String.ofList (line ++ ending ++ '\n' :: rest)
    (scan joined).tokens.dropLast.map Token.content =
        (scan (String.ofList line)).tokens.dropLast.map Token.content ++
          (scan (String.ofList rest)).tokens.dropLast.map Token.content ∧
      reports joined = reports (String.ofList line) ++
        (reports (String.ofList rest)).map fun d => { d with line := d.line + 1 } := by
  intro joined
  obtain ⟨a, divided_a, split_a, closed_a, found_a, faults_a⟩ := exists_divided_line ends closed
  obtain ⟨b, divided_b, split_b⟩ := exists_divided rest
  have scanned : scan (String.ofList rest) = Part.outcome b :=
    scan_eq_outcome divided_b (by simp [split_b])
  have divided := divided_a.append_newline divided_b closed_a
  have split : Part.texts (a ++ .trivia (.blank .newline) :: b) = joined.toList := by
    simp [joined, Part.texts_append, split_a, split_b, Part.text, Trivia.text, Blank.char]
  have below : 1 + lineBreaks (Part.texts a) = 1 := by
    have returns : '\n' ∉ ending := by rcases ends with rfl | rfl <;> decide
    rw [split_a, lineBreaks_append, lineBreaks, lineBreaks, List.count_eq_zero.mpr absent,
      List.count_eq_zero.mpr returns]
  obtain ⟨tokens, faults⟩ := Part.outcome_append_newline a b
  rw [below, ← scan_eq_outcome divided split, ← scanned] at tokens faults
  have some : (scan (String.ofList rest)).tokens.map (Token.moved ⟨byteLength (Part.texts a) + 1, 1⟩) ≠
      [] := by
    rw [scanned]
    simp [Part.outcome]
  constructor
  · rw [tokens, List.dropLast_append_of_ne_nil some, Part.dropLast_tokens, found_a, List.map_append,
      ← List.map_dropLast, List.map_map]
    rfl
  · rw [reports_eq, reports_eq, reports_eq, faults, faults_a, List.map_append, List.map_map,
      List.map_map]
    rfl

/-! ## All lines -/

/-- The reports of lines, each with the number of its line. -/
def numbered (first : Nat) (lines : List String) : List Diagnostic :=
  (lines.zipIdx first).flatMap fun (line, n) => (reports line).map fun d => { d with line := n }

theorem numbered_cons (first : Nat) (line : String) (lines : List String) :
    numbered first (line :: lines) =
      (reports line).map (fun d => { d with line := first }) ++ numbered (first + 1) lines := by
  rw [numbered, List.zipIdx_cons, List.flatMap_cons]
  rfl

theorem numbered_succ (first : Nat) (lines : List String) :
    numbered (first + 1) lines =
      (numbered first lines).map fun d => { d with line := d.line + 1 } := by
  induction lines generalizing first with
  | nil => rfl
  | cons line lines ih => rw [numbered_cons, numbered_cons, ih, List.map_append, List.map_map]; rfl

/-- What a listing has in front of its last record. -/
def records (source : String) : List Char := listing (scan source).tokens.dropLast

theorem records_eq (source : String) :
    records source = ((scan source).tokens.dropLast.map Token.content).flatMap entry :=
  listing_eq _

theorem render_eq_records (source : String) :
    render .text (scan source).tokens = String.ofList (records source) ++ "EOF  null\n" := by
  obtain ⟨lexemes, contents⟩ := exists_lexemes_of_scan source
  rw [render, records_eq, listing_eq, List.map_dropLast, contents, List.dropLast_concat,
    List.flatMap_append, String.ofList_append]
  rfl

/-- A line by itself has the number one already. -/
theorem map_line_reports {line : List Char} (absent : '\n' ∉ line) :
    (reports (String.ofList line)).map (fun d => { d with line := 1 }) =
      reports (String.ofList line) := by
  refine (List.map_congr_left fun d member => ?_).trans (List.map_id _)
  rw [← line_of_mem_reports (by simpa using absent) d member]
  rfl

section Lines

variable {line ending rest : List Char} {lines : List String}

/-- What a source has, told from its lines. -/
def Linewise (text : List Char) (lines : List String) : Prop :=
  records (String.ofList text) = lines.flatMap records ∧
    reports (String.ofList text) = numbered 1 lines

theorem Linewise.cons (absent : '\n' ∉ line) (ends : IsReturn ending)
    (closed : ∀ f ∈ (scan (String.ofList line)).faults, f.cause ≠ .unclosed)
    (others : Linewise rest lines) :
    Linewise (line ++ ending ++ '\n' :: rest) (String.ofList line :: lines) := by
  obtain ⟨tokens, reported⟩ := scan_ended_line absent ends closed rest
  obtain ⟨other_records, other_reports⟩ := others
  constructor
  · rw [List.flatMap_cons, records_eq, tokens, List.flatMap_append, ← records_eq, ← records_eq,
      other_records]
  · rw [reported, numbered_cons, map_line_reports absent, numbered_succ 1, other_reports]

/-- The records of a source are those of its lines, one line after the other, and so are the
diagnostics, up to their line. -/
theorem HasLines.linewise {text : List Char} (h : HasLines text lines)
    (closed : ∀ line ∈ lines, ∀ f ∈ (scan line).faults, f.cause ≠ .unclosed) :
    Linewise text lines := by
  induction h with
  | none => exact ⟨by decide +kernel, by decide +kernel⟩
  | @unended line nonempty absent =>
      refine ⟨(List.flatMap_singleton ..).symm, ?_⟩
      rw [numbered_cons, map_line_reports absent]
      exact (List.append_nil _).symm
  | @feed line rest lines absent noReturn others ih =>
      obtain ⟨first, closed⟩ := List.forall_mem_cons.mp closed
      have read := Linewise.cons absent (.inl rfl) first (ih closed)
      rwa [List.append_nil] at read
  | @returnFeed line rest lines absent others ih =>
      obtain ⟨first, closed⟩ := List.forall_mem_cons.mp closed
      have read := Linewise.cons absent (.inr rfl) first (ih closed)
      rwa [List.append_assoc] at read

end Lines

end LoxLexer
