-- SUMMARY: The spans of a scan tile its source: ordered, apart from each other, on boundaries of characters, with blanks and comments in the gaps.
import LoxLexer.Proofs.Place
import LoxLexer.Proofs.Bytes

/-!
# Spans tile the source

Tokens and faults stand where their parts stand, and the parts follow one another
without a gap. So a stretch of bytes that no span covers begins and ends between
parts, and all parts in it are trivia.
-/

namespace LoxLexer

/-! ## Spans of an outcome -/

/-- Two spans have no byte in common. -/
def Span.Apart (a b : Span) : Prop := a.stop ≤ b.offset ∨ b.stop ≤ a.offset

def Span.Covers (s : Span) (i : Nat) : Prop := s.offset ≤ i ∧ i < s.stop

namespace Outcome

/-- The spans of all tokens but the end of input, and of all faults. -/
def spans (o : Outcome) : List Span :=
  (o.tokens.filter (·.kind ≠ .eof)).map Token.span ++ o.faults.map Fault.span

def Covers (o : Outcome) (i : Nat) : Prop := ∃ s ∈ o.spans, s.Covers i

/-- A stretch from `first` to just before `last` that no span covers, as long as the
spans around it and the `size` of the source allow. -/
structure IsGap (o : Outcome) (size first last : Nat) : Prop where
  nonempty : first < last
  inside : last ≤ size
  uncovered : ∀ i, first ≤ i → i < last → ¬ o.Covers i
  begins : first = 0 ∨ o.Covers (first - 1)
  ends : last = size ∨ o.Covers last

end Outcome

/-- Blanks and comments, with what follows them. A comment reaches up to a line break
or to the end. -/
inductive Skipped (after : List Char) : List Char → Prop where
  | nil : Skipped after []
  | blank (b : Blank) {rest : List Char} : Skipped after rest → Skipped after (b.char :: rest)
  | comment (body : Without '\n') {rest : List Char} :
      (∀ c ∈ (rest ++ after).head?, c = '\n') → Skipped after rest →
      Skipped after ('/' :: '/' :: body.text ++ rest)

/-- What the spans of an outcome are to a source. -/
structure Outcome.Tiles (o : Outcome) (source : String) : Prop where
  tokens_ascend : o.tokens.Pairwise fun a b => a.span.offset < b.span.offset
  faults_ascend : o.faults.Pairwise fun a b => a.span.offset < b.span.offset
  nonempty : ∀ s ∈ o.spans, 0 < s.length
  inside : ∀ s ∈ o.spans, s.stop ≤ source.utf8ByteSize
  boundaries : ∀ s ∈ o.spans,
    String.Pos.Raw.IsValid source ⟨s.offset⟩ ∧ String.Pos.Raw.IsValid source ⟨s.stop⟩
  apart : o.spans.Pairwise Span.Apart
  lexemes : ∀ t ∈ o.tokens,
    source.toByteArray.extract t.span.offset t.span.stop = t.lexeme.toByteArray
  gaps : ∀ first last, o.IsGap source.utf8ByteSize first last →
    ∃ before text after, source.toList = before ++ text ++ after ∧ byteLength before = first ∧
      byteLength (before ++ text) = last ∧ Skipped after text
  ends : ∃ init line, o.tokens = init ++ [⟨.eof, "", none, line, ⟨source.utf8ByteSize, 0⟩⟩] ∧
    ∀ t ∈ init, t.kind ≠ .eof

namespace Part

variable {parts : List Part}

/-! ## Spans of parts -/

/-- The tokens of the parts, without the end of input. -/
def found (parts : List Part) : List Token :=
  (located .start parts).filterMap fun (place, p) => p.token? place

theorem kind_ne_eof {t : Token} (member : t ∈ found parts) : t.kind ≠ .eof := by
  obtain ⟨before, p, after, -, yields⟩ := mem_filterMap_located.mp member
  cases p with
  | lexeme l =>
      cases yields
      exact l.kind_ne_eof
  | _ => cases yields

theorem filter_kind_ne_eof : (outcome parts).tokens.filter (·.kind ≠ .eof) = found parts := by
  have kept : (found parts).filter (·.kind ≠ .eof) = found parts :=
    List.filter_eq_self.mpr fun t member => by simpa using kind_ne_eof member
  have split : (outcome parts).tokens =
    found parts ++ [Token.eof (Position.start.after (texts parts))] := rfl
  rw [split, List.filter_append, kept]
  exact List.append_nil _

theorem spans_outcome :
    (outcome parts).spans = (found parts).map Token.span ++ (outcome parts).faults.map Fault.span := by
  rw [Outcome.spans, filter_kind_ne_eof]

/-- Spans are those of the parts that are no trivia. -/
theorem mem_spans_iff {s : Span} :
    s ∈ (outcome parts).spans ↔ ∃ before p after, parts = before ++ p :: after ∧
      (∀ t, p ≠ .trivia t) ∧ s = (Position.start.after (texts before)).span p.text := by
  rw [spans_outcome, List.mem_append, List.mem_map, List.mem_map]
  constructor
  · rintro (⟨t, member, rfl⟩ | ⟨f, member, rfl⟩)
    · obtain ⟨before, p, after, split, yields⟩ := mem_filterMap_located.mp member
      refine ⟨before, p, after, split, ?_, (eq_of_token? yields).1⟩
      rintro _ rfl
      cases yields
    · obtain ⟨before, p, after, split, yields⟩ := mem_filterMap_located.mp member
      refine ⟨before, p, after, split, ?_, (eq_of_fault? yields).1⟩
      rintro _ rfl
      cases yields
  · rintro ⟨before, p, after, split, noTrivia, rfl⟩
    cases p with
    | lexeme l =>
        exact .inl ⟨_, mem_filterMap_located.mpr ⟨before, _, after, split, rfl⟩, rfl⟩
    | trivia t => exact absurd rfl (noTrivia t)
    | stray c =>
        exact .inr ⟨_, mem_filterMap_located.mpr ⟨before, _, after, split, rfl⟩, rfl⟩
    | unclosed body =>
        exact .inr ⟨_, mem_filterMap_located.mpr ⟨before, _, after, split, rfl⟩, rfl⟩

theorem byteLength_text_pos (p : Part) : 0 < byteLength p.text := by
  have := List.length_pos_iff.mpr p.text_ne_nil
  have := length_le_byteLength p.text
  omega

/-- What is read later begins where the earlier has ended. -/
theorem apart_of_after (place : Position) (text between other : List Char) :
    Span.Apart (place.span text) (((place.after text).after between).span other) := by
  left
  simp only [Span.stop, Position.span, Position.after]
  omega

/-- What follows a part begins behind where the part begins. -/
theorem offset_lt_of_after (place : Position) (p : Part) (between other : List Char) :
    (place.span p.text).offset < (((place.after p.text).after between).span other).offset := by
  have := byteLength_text_pos p
  simp only [Position.span, Position.after]
  omega

theorem after_texts_cons (before : List Part) (p : Part) (mid : List Part) :
    Position.start.after (texts (before ++ p :: mid)) =
      ((Position.start.after (texts before)).after p.text).after (texts mid) := by
  rw [texts_append, texts_cons, Position.after_append, Position.after_append]

/-- Of two parts in a list one is behind the other, unless they are one. -/
theorem apart_of_split {before after before' after' : List Part} {p q : Part}
    (same : before ++ p :: after = before' ++ q :: after') :
    (before = before' ∧ p = q) ∨
      Span.Apart ((Position.start.after (texts before)).span p.text)
        ((Position.start.after (texts before')).span q.text) := by
  rcases List.append_eq_append_iff.mp same with ⟨mid, rfl, rest⟩ | ⟨mid, rfl, rest⟩
  · cases mid with
    | nil =>
        obtain ⟨rfl, -⟩ := List.cons.inj rest
        exact .inl ⟨(List.append_nil _).symm, rfl⟩
    | cons r mid =>
        obtain ⟨rfl, -⟩ := List.cons.inj rest
        rw [after_texts_cons]
        exact .inr (apart_of_after _ _ _ _)
  · cases mid with
    | nil =>
        obtain ⟨rfl, -⟩ := List.cons.inj rest
        exact .inl ⟨List.append_nil _, rfl⟩
    | cons r mid =>
        obtain ⟨rfl, -⟩ := List.cons.inj rest
        rw [after_texts_cons]
        exact .inr (apart_of_after _ _ _ _).symm

/-! ## Gaps -/

section Gaps

variable {size first last : Nat}

theorem exists_split_of_begins (gap : (outcome parts).IsGap size first last) :
    ∃ before after, parts = before ++ after ∧ byteLength (texts before) = first := by
  rcases gap.begins with rfl | ⟨s, member, covers⟩
  · exact ⟨[], parts, rfl, rfl⟩
  · have outside : ¬ s.Covers first := fun covers =>
      gap.uncovered first (Nat.le_refl _) gap.nonempty ⟨s, member, covers⟩
    obtain ⟨before, p, after, split, -, rfl⟩ := mem_spans_iff.mp member
    refine ⟨before ++ [p], after, by simp [split], ?_⟩
    simp only [Span.Covers, Span.stop, Position.span, Position.offset_start_after] at covers outside
    simp only [texts_append, texts_cons, texts_nil, List.append_nil, byteLength_append]
    omega

theorem exists_split_of_ends (gap : (outcome parts).IsGap (byteLength (texts parts)) first last) :
    ∃ before after, parts = before ++ after ∧ byteLength (texts before) = last := by
  have nonempty := gap.nonempty
  rcases gap.ends with rfl | ⟨s, member, covers⟩
  · exact ⟨parts, [], (List.append_nil parts).symm, rfl⟩
  · have outside : ¬ s.Covers (last - 1) := fun covers =>
      gap.uncovered (last - 1) (by omega) (by omega) ⟨s, member, covers⟩
    obtain ⟨before, p, after, split, -, rfl⟩ := mem_spans_iff.mp member
    refine ⟨before, p :: after, split, ?_⟩
    simp only [Span.Covers, Span.stop, Position.span, Position.offset_start_after] at covers outside
    omega

/-- A gap is filled by parts, and all of them are trivia. -/
theorem exists_trivia_of_gap (gap : (outcome parts).IsGap (byteLength (texts parts)) first last) :
    ∃ before inner after, parts = before ++ inner ++ after ∧ byteLength (texts before) = first ∧
      byteLength (texts (before ++ inner)) = last ∧ ∀ p ∈ inner, ∃ t, p = .trivia t := by
  obtain ⟨before, others, split, rfl⟩ := exists_split_of_begins gap
  obtain ⟨upTo, after, split', rfl⟩ := exists_split_of_ends gap
  have nonempty := gap.nonempty
  rcases List.append_eq_append_iff.mp (split.symm.trans split') with
    ⟨inner, rfl, -⟩ | ⟨inner, rfl, -⟩
  · refine ⟨before, inner, after, split', rfl, rfl, ?_⟩
    intro p member
    obtain ⟨left, right, rfl⟩ := List.append_of_mem member
    refine Classical.byContradiction fun noTrivia => ?_
    -- A part that is no trivia would cover the byte it begins with.
    have span := mem_spans_iff.mpr ⟨before ++ left, p, right ++ after, by simpa using split',
      fun t eq => noTrivia ⟨t, eq⟩, rfl⟩
    have := byteLength_text_pos p
    refine gap.uncovered (byteLength (texts (before ++ left))) ?_ ?_ ⟨_, span, ?_⟩
    · simp [texts_append]
    · simp [texts_append]
      omega
    · simp only [Span.Covers, Span.stop, Position.span, Position.offset_start_after]
      omega
  · rw [texts_append, byteLength_append] at nonempty
    omega

theorem skipped_of_trivia {inner after : List Part} (divided : Divided (inner ++ after))
    (trivia : ∀ p ∈ inner, ∃ t, p = .trivia t) : Skipped (texts after) (texts inner) := by
  induction inner with
  | nil => exact .nil
  | cons p inner ih =>
      rw [List.cons_append] at divided
      obtain ⟨ends, divided⟩ := divided
      obtain ⟨first, others⟩ := List.forall_mem_cons.mp trivia
      obtain ⟨t, rfl⟩ := first
      cases t with
      | blank b => exact .blank b (ih divided others)
      | comment body =>
          rw [texts_append] at ends
          exact .comment body ends (ih divided others)

end Gaps

/-! ## The outcome of divided parts -/

theorem tokens_ascend :
    (outcome parts).tokens.Pairwise fun a b => a.span.offset < b.span.offset := by
  refine List.pairwise_append.mpr ⟨?_, List.pairwise_singleton _ _, ?_⟩
  · apply pairwise_filterMap_located
    intro place p between q x y foundx foundy
    rw [(eq_of_token? foundx).1, (eq_of_token? foundy).1]
    exact offset_lt_of_after place p between q.text
  · intro t member e last
    obtain ⟨before, p, after, rfl, yields⟩ := mem_filterMap_located.mp member
    rw [List.mem_singleton.mp last, (eq_of_token? yields).1]
    have := byteLength_text_pos p
    simp only [Token.eof, Position.span, Position.offset_start_after, texts_append, texts_cons,
      byteLength_append]
    omega

theorem faults_ascend :
    (outcome parts).faults.Pairwise fun a b => a.span.offset < b.span.offset := by
  apply pairwise_filterMap_located
  intro place p between q x y foundx foundy
  rw [(eq_of_fault? foundx).1, (eq_of_fault? foundy).1]
  exact offset_lt_of_after place p between q.text

theorem spans_apart : (outcome parts).spans.Pairwise Span.Apart := by
  rw [spans_outcome]
  refine List.pairwise_append.mpr ⟨?_, ?_, ?_⟩
  · refine List.pairwise_map.mpr (pairwise_filterMap_located ?_)
    intro place p between q x y foundx foundy
    rw [(eq_of_token? foundx).1, (eq_of_token? foundy).1]
    exact apart_of_after place p.text between q.text
  · refine List.pairwise_map.mpr (pairwise_filterMap_located ?_)
    intro place p between q x y foundx foundy
    rw [(eq_of_fault? foundx).1, (eq_of_fault? foundy).1]
    exact apart_of_after place p.text between q.text
  · intro a memberA b memberB
    obtain ⟨t, member, rfl⟩ := List.mem_map.mp memberA
    obtain ⟨f, member', rfl⟩ := List.mem_map.mp memberB
    obtain ⟨before, p, after, split, yields⟩ := mem_filterMap_located.mp member
    obtain ⟨before', q, after', split', yields'⟩ := mem_filterMap_located.mp member'
    rw [(eq_of_token? yields).1, (eq_of_fault? yields').1]
    rcases apart_of_split (split.symm.trans split') with ⟨-, rfl⟩ | apart
    · cases p with
      | lexeme l => cases yields'
      | trivia | stray | unclosed => cases yields
    · exact apart

variable {source : String}

theorem extract_lexeme (split : texts parts = source.toList) {t : Token}
    (member : t ∈ (outcome parts).tokens) :
    source.toByteArray.extract t.span.offset t.span.stop = t.lexeme.toByteArray := by
  rcases mem_tokens_iff.mp member with ⟨before, l, after, rfl, yields⟩ | rfl
  · cases yields
    have split : source.toList = texts before ++ l.text ++ texts after := by
      simp [← split, texts_append, text]
    simp only [Span.stop, Position.span, Position.offset_start_after]
    exact extract_of_split split
  · exact ByteArray.extract_same

section Spans

variable {s : Span}

theorem length_pos_of_span (member : s ∈ (outcome parts).spans) : 0 < s.length := by
  obtain ⟨before, p, after, -, -, rfl⟩ := mem_spans_iff.mp member
  exact byteLength_text_pos p

theorem stop_le_of_span (split : texts parts = source.toList)
    (member : s ∈ (outcome parts).spans) : s.stop ≤ source.utf8ByteSize := by
  obtain ⟨before, p, after, rfl, -, rfl⟩ := mem_spans_iff.mp member
  rw [← byteLength_toList, ← split]
  simp only [Span.stop, Position.span, Position.offset_start_after, texts_append, texts_cons,
    byteLength_append]
  omega

/-- Spans begin and end on boundaries of characters. -/
theorem isValid_of_span (split : texts parts = source.toList)
    (member : s ∈ (outcome parts).spans) :
    String.Pos.Raw.IsValid source ⟨s.offset⟩ ∧ String.Pos.Raw.IsValid source ⟨s.stop⟩ := by
  obtain ⟨before, p, after, rfl, -, rfl⟩ := mem_spans_iff.mp member
  rw [texts_append, texts_cons] at split
  simp only [Span.stop, Position.span, Position.offset_start_after, ← byteLength_append]
  constructor
  · exact isValid_of_split split.symm
  · exact isValid_of_split (split.symm.trans (List.append_assoc ..).symm)

end Spans

theorem exists_skipped_of_gap (divided : Divided parts) (split : texts parts = source.toList)
    {first last : Nat} (gap : (outcome parts).IsGap source.utf8ByteSize first last) :
    ∃ before text after, source.toList = before ++ text ++ after ∧ byteLength before = first ∧
      byteLength (before ++ text) = last ∧ Skipped after text := by
  rw [← byteLength_toList, ← split] at gap
  obtain ⟨before, inner, after, rfl, begins, ends, trivia⟩ := exists_trivia_of_gap gap
  refine ⟨texts before, texts inner, texts after, ?_, begins, ?_, ?_⟩
  · rw [← split, texts_append, texts_append]
  · rw [← ends, texts_append]
  · rw [List.append_assoc] at divided
    exact skipped_of_trivia divided.right trivia

theorem outcome_tiles (divided : Divided parts) (split : texts parts = source.toList) :
    (outcome parts).Tiles source where
  tokens_ascend := tokens_ascend
  faults_ascend := faults_ascend
  nonempty := fun _ member => length_pos_of_span member
  inside := fun _ member => stop_le_of_span split member
  boundaries := fun _ member => isValid_of_span split member
  apart := spans_apart
  lexemes := fun _ member => extract_lexeme split member
  gaps := fun _ _ gap => exists_skipped_of_gap divided split gap
  ends := by
    refine ⟨found parts, 1 + lineBreaks (texts parts), ?_, fun t member => kind_ne_eof member⟩
    rw [← byteLength_toList, ← split, ← Position.offset_start_after]
    rfl

end Part

/-- The spans of a scan tile its source. -/
theorem scan_tiles (source : String) : (scan source).Tiles source := by
  obtain ⟨parts, divided, split⟩ := exists_divided source.toList
  rw [scan_eq_outcome divided split]
  exact Part.outcome_tiles divided split

end LoxLexer
