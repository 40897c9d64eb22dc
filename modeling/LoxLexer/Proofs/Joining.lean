-- SUMMARY: What moves when a text is put in front of another, and that texts joined at a line break are scanned apart.
import LoxLexer.Proofs.Lookahead
import LoxLexer.Proofs.Tiling
import LoxLexer.Proofs.Reporting

/-!
# Texts joined at a line break

No part but a string and a comment reaches over a line break, and a comment ends there.
So a text without an unclosed string keeps its parts if a line break and any other text
follow it, and the parts of that other text are the same as if it stood alone: they are
only found further on. `Distance` says how far.
-/

namespace LoxLexer

/-! ## Distances -/

/-- How far something is moved. -/
structure Distance where
  bytes : Nat
  lines : Nat
  deriving DecidableEq, Repr

/-- How far a text moves what comes behind it. -/
def Distance.of (text : List Char) : Distance := ⟨byteLength text, lineBreaks text⟩

section Moved

variable (d : Distance)

def Position.moved (p : Position) : Position := ⟨p.offset + d.bytes, p.line + d.lines⟩

def Span.moved (s : Span) : Span := { s with offset := s.offset + d.bytes }

def Token.moved (t : Token) : Token := { t with line := t.line + d.lines, span := t.span.moved d }

def Fault.moved (f : Fault) : Fault := { f with line := f.line + d.lines, span := f.span.moved d }

def Diagnostic.moved (g : Diagnostic) : Diagnostic := { g with line := g.line + d.lines }

theorem Position.moved_after (p : Position) (text : List Char) :
    (p.after text).moved d = (p.moved d).after text := by
  simp only [moved, after, Position.mk.injEq]
  omega

theorem Position.moved_of (text : List Char) :
    Position.start.moved (.of text) = Position.start.after text :=
  rfl

theorem Fault.diagnostic_moved (f : Fault) : (f.moved d).diagnostic = f.diagnostic.moved d := rfl

namespace Part

theorem token?_moved (place : Position) (p : Part) :
    p.token? (place.moved d) = (p.token? place).map (Token.moved d) := by
  cases p with
  | lexeme l =>
      simp only [token?, ← Position.moved_after]
      rfl
  | _ => rfl

theorem fault?_moved (place : Position) (p : Part) :
    p.fault? (place.moved d) = (p.fault? place).map (Fault.moved d) := by
  cases p with
  | stray c =>
      simp only [fault?, ← Position.moved_after]
      rfl
  | unclosed body =>
      simp only [fault?, ← Position.moved_after]
      rfl
  | _ => rfl

theorem located_moved (place : Position) (parts : List Part) :
    located (place.moved d) parts =
      (located place parts).map fun (place, p) => (place.moved d, p) := by
  induction parts generalizing place with
  | nil => rfl
  | cons p parts ih =>
      rw [located, ← Position.moved_after, ih]
      rfl

end Part

end Moved

/-! ## Parts behind other parts -/

namespace Part

variable (a b : List Part)

theorem dropLast_tokens : (outcome a).tokens.dropLast = found a := List.dropLast_concat

/-- What parts yield behind others is what they yield alone, moved. -/
theorem filterMap_located_append {α : Type} {yields : Position → Part → Option α} {move : α → α}
    (moved : ∀ place p, yields (place.moved (.of (texts a))) p = (yields place p).map move) :
    ((located .start (a ++ b)).filterMap fun (place, p) => yields place p) =
      ((located .start a).filterMap fun (place, p) => yields place p) ++
        ((located .start b).filterMap fun (place, p) => yields place p).map move := by
  rw [located_append, List.filterMap_append, ← Position.moved_of, located_moved,
    List.filterMap_map, List.map_filterMap]
  refine congrArg _ (congrArg (List.filterMap · _) ?_)
  funext ⟨place, p⟩
  exact moved place p

theorem tokens_append :
    (outcome (a ++ b)).tokens =
      found a ++ (outcome b).tokens.map (Token.moved (.of (texts a))) := by
  have eof : Token.eof (Position.start.after (texts (a ++ b))) =
      (Token.eof (Position.start.after (texts b))).moved (.of (texts a)) := by
    rw [texts_append, Position.after_append, ← Position.moved_of, ← Position.moved_after]
    rfl
  rw [outcome, filterMap_located_append a b (token?_moved _), List.append_assoc, eof]
  simp [outcome, found]

theorem faults_append :
    (outcome (a ++ b)).faults =
      (outcome a).faults ++ (outcome b).faults.map (Fault.moved (.of (texts a))) :=
  filterMap_located_append a b (fault?_moved _)

end Part

/-! ## Parts in front of blanks -/

section Blank

variable {rest : List Char} (b : Blank) (more : List Char)

theorem head_append_blank {P : Char → Prop} (head : ∀ c ∈ rest.head?, P c) (blank : P b.char) :
    ∀ c ∈ (rest ++ b.char :: more).head?, P c := by
  cases rest with
  | nil => simpa using blank
  | cons c rest => exact head

theorem Lexeme.Ends.append_blank {l : Lexeme} (ends : l.Ends rest) :
    l.Ends (rest ++ b.char :: more) := by
  refine ends.of_seen ?_ ?_
  · exact head_append_blank (P := fun c => c ∈ rest.head? ∨ IsBlank c) b more
      (fun c member => .inl member) (.inr ⟨b, rfl⟩)
  · intro d _ c tail split
    -- The second character is one of the text, unless the point is all of it.
    match rest, split with
    | [], split => cases b <;> cases split
    | [_], split =>
        cases split
        exact .inr ⟨b, rfl⟩
    | _ :: _ :: rest, split =>
        cases split
        exact .inl ⟨rest, rfl⟩

/-- A closed part that may end in front of a text may end there also if a blank follows the text.
Only a comment at the very end would take the blank in, unless that is a line break. -/
theorem Part.Ends.append_blank {p : Part} (ends : p.Ends rest)
    (closed : ∀ body, p ≠ .unclosed body)
    (outside : ∀ body, p = .trivia (.comment body) → rest ≠ [] ∨ b = .newline) :
    p.Ends (rest ++ b.char :: more) := by
  cases p with
  | lexeme l => exact Lexeme.Ends.append_blank b more ends
  | trivia t =>
      cases t with
      | blank b => trivial
      | comment body =>
          rcases outside body rfl with some | rfl
          · obtain ⟨c, tail, rfl⟩ := List.exists_cons_of_ne_nil some
            exact ends
          · exact head_append_blank .newline more ends rfl
  | stray c => exact ends
  | unclosed body => exact absurd rfl (closed body)

end Blank

/-- Closed parts, a line break and other parts are divided if the two sides are. -/
theorem Divided.append_newline {a b : List Part} (ha : Divided a) (hb : Divided b)
    (closed : ∀ body, .unclosed body ∉ a) :
    Divided (a ++ .trivia (.blank .newline) :: b) := by
  induction a with
  | nil => exact ⟨trivial, hb⟩
  | cons p a ih =>
      obtain ⟨ends, ha⟩ := ha
      simp only [List.mem_cons, not_or, forall_and] at closed
      obtain ⟨first, others⟩ := closed
      refine ⟨?_, ih ha others⟩
      change p.Ends (Part.texts (a ++ .trivia (.blank .newline) :: b))
      rw [Part.texts_append]
      exact ends.append_blank .newline _ (fun body eq => first body eq.symm) fun _ _ => .inr rfl

/-! ## Scans -/

theorem closed_of_faults {parts : List Part}
    (closed : ∀ f ∈ (Part.outcome parts).faults, f.cause ≠ .unclosed) :
    ∀ body, .unclosed body ∉ parts := by
  intro body member
  obtain ⟨before, after, rfl⟩ := List.append_of_mem member
  exact closed _ (Part.mem_filterMap_located.mpr ⟨before, _, after, rfl, rfl⟩) rfl

/-- Parts in front of a line break are scanned as if it were the end. -/
theorem Part.outcome_append_newline (a b : List Part) :
    let d : Distance := ⟨byteLength (texts a) + 1, 1 + lineBreaks (texts a)⟩
    (outcome (a ++ .trivia (.blank .newline) :: b)).tokens =
        (outcome a).tokens.dropLast ++ (outcome b).tokens.map (Token.moved d) ∧
      (outcome (a ++ .trivia (.blank .newline) :: b)).faults =
        (outcome a).faults ++ (outcome b).faults.map (Fault.moved d) := by
  intro d
  let line := a ++ [.trivia (.blank .newline)]
  have distance : Distance.of (texts line) = d := by
    simp only [Distance.of, line, texts_append, byteLength_append, lineBreaks_append, d,
      Distance.mk.injEq]
    exact ⟨rfl, Nat.add_comm _ _⟩
  have tokens : found line = found a := by
    rw [found, located_append, List.filterMap_append]
    exact List.append_nil _
  have faults : (outcome line).faults = (outcome a).faults := by
    simp [outcome, line, located_append, located, fault?]
  have split : a ++ .trivia (.blank .newline) :: b = line ++ b := by simp [line]
  rw [split, tokens_append, faults_append, distance, tokens, faults, dropLast_tokens]
  exact ⟨rfl, rfl⟩

/-- A text without an unclosed string, a line break and another text are scanned as the two
texts are, the second one moved behind the line break; a reporter hears of the first text
and then of the second. -/
theorem scan_append_newline (a b : String) (closed : ∀ f ∈ (scan a).faults, f.cause ≠ .unclosed) :
    let joined := a ++ "\n" ++ b
    let d : Distance := ⟨a.utf8ByteSize + 1, 1 + lineBreaks a.toList⟩
    (scan joined).tokens = (scan a).tokens.dropLast ++ (scan b).tokens.map (Token.moved d) ∧
      (scan joined).faults = (scan a).faults ++ (scan b).faults.map (Fault.moved d) ∧
      reports joined = reports a ++ (reports b).map (Diagnostic.moved d) ∧
      ∀ {σ : Type} (reporter : Reporter σ) (state : σ),
        (scanWith reporter state joined).2 =
          ((reports b).map (Diagnostic.moved d)).foldl reporter.report
            (scanWith reporter state a).2 := by
  intro joined d
  obtain ⟨pa, divided_a, split_a⟩ := exists_divided a.toList
  obtain ⟨pb, divided_b, split_b⟩ := exists_divided b.toList
  have scan_a := scan_eq_outcome divided_a split_a
  have scan_b := scan_eq_outcome divided_b split_b
  rw [scan_a] at closed
  have divided := divided_a.append_newline divided_b (closed_of_faults closed)
  have split : Part.texts (pa ++ .trivia (.blank .newline) :: pb) = joined.toList := by
    simp [joined, Part.texts_append, split_a, split_b, Part.text, Trivia.text, Blank.char]
  obtain ⟨tokens, faults⟩ := Part.outcome_append_newline pa pb
  rw [← scan_eq_outcome divided split, ← scan_a, ← scan_b, split_a, byteLength_toList]
    at tokens faults
  have told : (scan joined).faults.map Fault.diagnostic =
      reports a ++ (reports b).map (Diagnostic.moved d) := by
    rw [faults, reports_eq, reports_eq, List.map_append, List.map_map, List.map_map]
    simp only [d, Function.comp_def, Fault.diagnostic_moved]
  refine ⟨tokens, faults, (reports_eq joined).trans told, ?_⟩
  intro σ reporter state
  rw [scanWith_eq, scanWith_eq, told, List.foldl_append, reports_eq a]

/-- A point that a digit behind the line break does not reach, and a quote in a comment. -/
theorem scan_append_newline_digit :
    (∀ f ∈ (scan "@ 1.\n1. // \"").faults, f.cause ≠ .unclosed) ∧
      (scan ("@ 1.\n1. // \"" ++ "\n" ++ "5 é")).tokens =
        (scan "@ 1.\n1. // \"").tokens.dropLast ++ (scan "5 é").tokens.map (Token.moved ⟨13, 2⟩) ∧
      (scan ("@ 1.\n1. // \"" ++ "\n" ++ "5 é")).faults =
        (scan "@ 1.\n1. // \"").faults ++ (scan "5 é").faults.map (Fault.moved ⟨13, 2⟩) := by
  have closed : ∀ f ∈ (scan "@ 1.\n1. // \"").faults, f.cause ≠ .unclosed := by decide +kernel
  obtain ⟨tokens, faults, -⟩ := scan_append_newline "@ 1.\n1. // \"" "5 é" closed
  exact ⟨closed, tokens, faults⟩

end LoxLexer
