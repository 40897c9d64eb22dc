-- SUMMARY: The lines of tokens and faults are those of the ends of their spans, counted in the bytes of the source.
import LoxLexer.Proofs.Place
import LoxLexer.Proofs.Bytes

/-!
# Lines

The line of a place is one more than the line breaks before it. A part ends on the
line it begins on unless it has line breaks of its own, and among tokens and faults
only strings have any.
-/

namespace LoxLexer

/-! ## Lines of offsets -/

/-- The line that an offset is on: the line breaks among the bytes before it, and one. -/
def lineAt (source : String) (offset : Nat) : Nat :=
  1 + lineFeeds (source.toByteArray.extract 0 offset)

theorem lineAt_of_split {source : String} {before after : List Char}
    (split : source.toList = before ++ after) :
    lineAt source (byteLength before) = 1 + lineBreaks before := by
  have bytes := extract_of_split (show source.toList = [] ++ before ++ after from split)
  rw [byteLength_nil, Nat.zero_add] at bytes
  rw [lineAt, bytes, lineFeeds_ofList]

/-- What the lines of an outcome are to a source. -/
structure Outcome.KeepsLines (o : Outcome) (source : String) : Prop where
  tokens : ∀ t ∈ o.tokens, t.line = lineAt source t.span.stop
  faults : ∀ f ∈ o.faults, f.line = lineAt source f.span.stop
  tokens_ascend : o.tokens.Pairwise fun a b => a.line ≤ b.line
  faults_ascend : o.faults.Pairwise fun a b => a.line ≤ b.line
  /-- A string is on the line of its last byte, the closing quote. -/
  strings : ∀ t ∈ o.tokens, t.kind = .string → t.line = lineAt source (t.span.stop - 1) ∧
    source.toByteArray.extract (t.span.stop - 1) t.span.stop = "\"".toByteArray
  eof : ∀ t ∈ o.tokens, t.kind = .eof → t.line = 1 + lineBreaks source.toList
  unclosed : ∀ f ∈ o.faults, f.cause = .unclosed → f.line = 1 + lineBreaks source.toList
  otherTokens : ∀ t ∈ o.tokens, t.kind ≠ .string → t.kind ≠ .eof →
    t.line = lineAt source t.span.offset
  otherFaults : ∀ f ∈ o.faults, f.cause ≠ .unclosed → f.line = lineAt source f.span.offset

/-! ## Line breaks in lexemes -/

/-- No lexeme but a string has a line break. -/
theorem Lexeme.newline_not_mem {l : Lexeme} (h : l.kind ≠ .string) : '\n' ∉ l.text :=
  l.blank_not_mem_text h .newline

namespace Part

variable {source : String} {parts before after : List Part} {p : Part}

/-! ## Lines of parts -/

theorem lineAt_offset (split : texts (before ++ p :: after) = source.toList) :
    lineAt source (Position.start.after (texts before)).offset =
      (Position.start.after (texts before)).line := by
  rw [texts_append] at split
  rw [Position.offset_start_after, lineAt_of_split split.symm, Position.line_start_after]

theorem lineAt_stop (split : texts (before ++ p :: after) = source.toList) :
    lineAt source ((Position.start.after (texts before)).span p.text).stop =
      ((Position.start.after (texts before)).after p.text).line := by
  rw [texts_append, texts_cons, ← List.append_assoc] at split
  rw [Position.stop_span, ← Position.after_append, Position.offset_start_after,
    lineAt_of_split split.symm, Position.line_start_after]

/-- Reading a text without line breaks stays on a line. -/
theorem line_after_of_not_mem {place : Position} {text : List Char} (absent : '\n' ∉ text) :
    (place.after text).line = place.line := by
  have none : lineBreaks text = 0 := List.count_eq_zero.mpr absent
  rw [Position.after, none, Nat.add_zero]

/-- The last byte of a string is its closing quote, and no line break. -/
theorem lineAt_closing_quote {body : Without '"'}
    (split : texts (before ++ .lexeme (.quoted body) :: after) = source.toList) :
    let place := Position.start.after (texts before)
    let text := (Lexeme.quoted body).text
    (place.after text).line = lineAt source ((place.span text).stop - 1) ∧
      source.toByteArray.extract ((place.span text).stop - 1) (place.span text).stop =
        "\"".toByteArray := by
  intro place text
  let opened := texts before ++ '"' :: body.text
  have split : source.toList = opened ++ ['"'] ++ texts after := by
    simp [← split, texts_append, opened, Part.text, Lexeme.text]
  have reached : place.after text = Position.start.after (opened ++ ['"']) := by
    simp [place, text, opened, ← Position.after_append, Lexeme.text]
  have stop : (place.span text).stop = byteLength opened + byteLength ['"'] := by
    rw [Position.stop_span, reached, Position.offset_start_after, byteLength_append]
  have quote : byteLength opened + byteLength ['"'] - 1 = byteLength opened := rfl
  rw [stop, reached, quote]
  refine ⟨?_, extract_of_split split⟩
  rw [Position.line_start_after, lineBreaks_append,
    lineAt_of_split (split.trans (List.append_assoc ..))]
  rfl

/-- A character that begins nothing is no line break. -/
theorem newline_not_mem_stray {c : Char} {rest : List Char} (ends : (stray c).Ends rest) :
    '\n' ∉ (stray c).text := by
  rw [Part.text, List.mem_singleton]
  rintro rfl
  exact absurd (show Lead.of '\n' = .stray from ends) (by decide)

/-! ## The outcome of divided parts -/

theorem lines_of_tokens_ascend : (outcome parts).tokens.Pairwise fun a b => a.line ≤ b.line := by
  refine List.pairwise_append.mpr ⟨?_, List.pairwise_singleton _ _, ?_⟩
  · apply pairwise_filterMap_located
    intro place p between q x y foundx foundy
    rw [(eq_of_token? foundx).2, (eq_of_token? foundy).2]
    simp only [Position.after]
    omega
  · intro t member e last
    obtain ⟨before, p, after, rfl, yields⟩ := mem_filterMap_located.mp member
    rw [List.mem_singleton.mp last, (eq_of_token? yields).2, ← Position.after_append]
    simp only [Token.eof, Position.line_start_after, texts_append, texts_cons, lineBreaks_append]
    omega

theorem lines_of_faults_ascend : (outcome parts).faults.Pairwise fun a b => a.line ≤ b.line := by
  apply pairwise_filterMap_located
  intro place p between q x y foundx foundy
  rw [(eq_of_fault? foundx).2, (eq_of_fault? foundy).2]
  simp only [Position.after]
  omega

section Tokens

variable {t : Token}

theorem line_of_token (split : texts parts = source.toList)
    (member : t ∈ (outcome parts).tokens) : t.line = lineAt source t.span.stop := by
  rcases mem_tokens_iff.mp member with ⟨before, l, after, rfl, yields⟩ | rfl
  · rw [(eq_of_token? yields).1, (eq_of_token? yields).2, lineAt_stop split]
  · have whole := lineAt_of_split (split.symm.trans (List.append_nil _).symm)
    simpa [Token.eof, Position.stop_span] using whole.symm

theorem line_of_string (split : texts parts = source.toList)
    (member : t ∈ (outcome parts).tokens) (string : t.kind = .string) :
    t.line = lineAt source (t.span.stop - 1) ∧
      source.toByteArray.extract (t.span.stop - 1) t.span.stop = "\"".toByteArray := by
  rcases mem_tokens_iff.mp member with ⟨before, l, after, rfl, yields⟩ | rfl
  · cases yields
    obtain ⟨body, rfl⟩ := Lexeme.kind_eq_string_iff.mp string
    exact lineAt_closing_quote split
  · cases string

theorem line_of_eof (split : texts parts = source.toList)
    (member : t ∈ (outcome parts).tokens) (eof : t.kind = .eof) :
    t.line = 1 + lineBreaks source.toList := by
  rcases mem_tokens_iff.mp member with ⟨before, l, after, rfl, yields⟩ | rfl
  · cases yields
    exact absurd eof l.kind_ne_eof
  · rw [← split]
    rfl

theorem line_of_other_token (split : texts parts = source.toList)
    (member : t ∈ (outcome parts).tokens) (noString : t.kind ≠ .string) (noEof : t.kind ≠ .eof) :
    t.line = lineAt source t.span.offset := by
  rcases mem_tokens_iff.mp member with ⟨before, l, after, rfl, yields⟩ | rfl
  · cases yields
    have unbroken := Lexeme.newline_not_mem noString
    exact (line_after_of_not_mem unbroken).trans (lineAt_offset split).symm
  · exact absurd rfl noEof

end Tokens

section Faults

variable {f : Fault}

theorem line_of_fault (split : texts parts = source.toList)
    (member : f ∈ (outcome parts).faults) : f.line = lineAt source f.span.stop := by
  obtain ⟨before, p, after, rfl, yields⟩ := mem_filterMap_located.mp member
  rw [(eq_of_fault? yields).1, (eq_of_fault? yields).2, lineAt_stop split]

/-- An unclosed string is the last part, so all line breaks are before its end. -/
theorem line_of_unclosed (divided : Divided parts) (split : texts parts = source.toList)
    (member : f ∈ (outcome parts).faults) (unclosed : f.cause = .unclosed) :
    f.line = 1 + lineBreaks source.toList := by
  obtain ⟨before, p, after, rfl, yields⟩ := mem_filterMap_located.mp member
  cases p with
  | unclosed body =>
      obtain ⟨-, rest⟩ := divided.right.1
      rw [(eq_of_fault? yields).2, ← Position.after_append, ← split, texts_append, texts_cons,
        rest, List.append_nil]
      rfl
  | stray c =>
      cases yields
      cases unclosed
  | lexeme | trivia => cases yields

theorem line_of_other_fault (divided : Divided parts) (split : texts parts = source.toList)
    (member : f ∈ (outcome parts).faults) (closed : f.cause ≠ .unclosed) :
    f.line = lineAt source f.span.offset := by
  obtain ⟨before, p, after, rfl, yields⟩ := mem_filterMap_located.mp member
  cases p with
  | stray c =>
      cases yields
      have unbroken := newline_not_mem_stray divided.right.1
      exact (line_after_of_not_mem unbroken).trans (lineAt_offset split).symm
  | unclosed body =>
      cases yields
      exact absurd rfl closed
  | lexeme | trivia => cases yields

end Faults

theorem outcome_keepsLines (divided : Divided parts) (split : texts parts = source.toList) :
    (outcome parts).KeepsLines source where
  tokens := fun _ member => line_of_token split member
  faults := fun _ member => line_of_fault split member
  tokens_ascend := lines_of_tokens_ascend
  faults_ascend := lines_of_faults_ascend
  strings := fun _ member => line_of_string split member
  eof := fun _ member => line_of_eof split member
  unclosed := fun _ member => line_of_unclosed divided split member
  otherTokens := fun _ member => line_of_other_token split member
  otherFaults := fun _ member => line_of_other_fault divided split member

end Part

/-- The lines of a scan follow the line breaks of its source. -/
theorem scan_keepsLines (source : String) : (scan source).KeepsLines source := by
  obtain ⟨parts, divided, split⟩ := exists_divided source.toList
  rw [scan_eq_outcome divided split]
  exact Part.outcome_keepsLines divided split

end LoxLexer
