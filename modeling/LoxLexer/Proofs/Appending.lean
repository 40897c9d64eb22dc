-- SUMMARY: Text added to a source changes no token that ends before the source does, but for a number in front of a final point, and no fault but an unclosed string.
import LoxLexer.Proofs.Lookahead
import LoxLexer.Proofs.Joining

/-!
# Added text

No part looks further ahead than two characters, so text that is added to a source can change only
what stands at its end. The parts in front of that are *settled*: they are the first parts of every
source that begins with this one. What may change is the last part, or a whole number and a point
behind it, since a digit may follow.
-/

namespace LoxLexer

/-! ## Settled tokens -/

/-- Whether a token ends before its source does, and is no number without a fraction that has nothing
but a point behind it. -/
def Token.IsSettled (source : String) (t : Token) : Prop :=
  t.kind ≠ .eof ∧ t.span.stop < source.utf8ByteSize ∧
    ¬ (t.kind = .number ∧ '.' ∉ t.lexeme.toList ∧
      source.toByteArray.extract t.span.stop source.utf8ByteSize = ".".toByteArray)

instance (source : String) : DecidablePred (Token.IsSettled source) :=
  fun _ => inferInstanceAs (Decidable (_ ∧ _ ∧ ¬ (_ ∧ _ ∧ _)))

/-- The last tokens of a source that what is added may change: one at most, or two if they are a
number without a fraction and a point. -/
inductive Token.Unsettled (source : String) : List Token → Prop
  | none : Unsettled source []
  | last (t : Token) : t.span.stop = source.utf8ByteSize → Unsettled source [t]
  | point (number dot : Token) : number.kind = .number → '.' ∉ number.lexeme.toList →
    dot.kind = .mark .dot → dot.span.offset = number.span.stop →
    dot.span.stop = source.utf8ByteSize → Unsettled source [number, dot]

/-! ## Settled parts -/

namespace Part

/-- The first parts of a text, as long as they are far from its end. -/
def settled : List Part → List Part
  | [] => []
  | p :: parts => if p.IsFar (texts parts) then p :: settled parts else []

end Part

section Settled

variable {p : Part} {parts : List Part}

/-- Behind a part that is not far from the end is nothing, or it is a whole number and a point is
behind it. -/
theorem Divided.eq_of_near (divided : Divided parts) (near : ¬ p.IsFar (Part.texts parts)) :
    parts = [] ∨ (∃ d, p = .lexeme (.whole d)) ∧ parts = [.lexeme (.mark .dot)] := by
  have nil (none : Part.texts parts = []) : parts = [] := Part.texts_eq_nil_iff.mp none
  cases p with
  | lexeme l =>
      cases l with
      | whole d =>
          by_cases none : Part.texts parts = []
          · exact .inl (nil none)
          · have point : Part.texts parts = ['.'] :=
              Decidable.not_not.mp fun other => near ⟨none, other⟩
            have dot : Divided [.lexeme (.mark .dot)] := ⟨trivial, trivial⟩
            exact .inr ⟨⟨d, rfl⟩, divided.unique dot point⟩
      | _ => exact .inl (nil (Decidable.not_not.mp near))
  | stray c => exact absurd trivial near
  | _ => exact .inl (nil (Decidable.not_not.mp near))

/-- Behind a part that is not far from the end none is. -/
theorem Divided.near_of_near (divided : Divided parts) (near : ¬ p.IsFar (Part.texts parts))
    {before after : List Part} {q : Part} (split : parts = before ++ q :: after) :
    ¬ q.IsFar (Part.texts after) := by
  rcases divided.eq_of_near near with rfl | ⟨-, rfl⟩
  · simp at split
  · cases before with
    | nil =>
        cases split
        exact fun far => far rfl
    | cons r before =>
        have : [] = before ++ q :: after := (List.cons.inj split).2
        simp at this

/-- Settled parts stay whatever is added to their text. -/
theorem Divided.exists_append (divided : Divided parts) (more : List Char) :
    ∃ others, Divided (Part.settled parts ++ others) ∧
      Part.texts (Part.settled parts ++ others) = Part.texts parts ++ more := by
  induction parts with
  | nil => exact exists_divided more
  | cons p parts ih =>
      obtain ⟨ends, divided⟩ := divided
      by_cases far : p.IsFar (Part.texts parts)
      · obtain ⟨others, later, split⟩ := ih divided
        refine ⟨others, ?_, ?_⟩
        · rw [Part.settled, if_pos far]
          refine ⟨?_, later⟩
          change p.Ends (Part.texts (Part.settled parts ++ others))
          rw [split]
          exact ends.append far more
        · rw [Part.settled, if_pos far, List.cons_append, Part.texts_cons, split, Part.texts_cons,
            List.append_assoc]
      · rw [Part.settled, if_neg far]
        exact exists_divided _

/-- What comes behind the settled parts is one part at most, or a whole number and a point. -/
theorem Divided.exists_unsettled (divided : Divided parts) :
    ∃ last, parts = Part.settled parts ++ last ∧ (last = [] ∨ (∃ p, last = [p]) ∨
      ∃ d, last = [.lexeme (.whole d), .lexeme (.mark .dot)]) := by
  induction parts with
  | nil => exact ⟨[], rfl, .inl rfl⟩
  | cons p parts ih =>
      obtain ⟨-, divided⟩ := divided
      by_cases far : p.IsFar (Part.texts parts)
      · obtain ⟨last, split, shape⟩ := ih divided
        refine ⟨last, ?_, shape⟩
        rw [Part.settled, if_pos far, List.cons_append, ← split]
      · refine ⟨p :: parts, ?_, .inr ?_⟩
        · rw [Part.settled, if_neg far]
          rfl
        · rcases divided.eq_of_near far with rfl | ⟨⟨d, rfl⟩, rfl⟩
          · exact .inl ⟨p, rfl⟩
          · exact .inr ⟨d, rfl⟩

end Settled

namespace Part

variable {parts : List Part} {source : String}

/-- What settled parts yield can be picked out from what all parts yield by any property that parts
far from the end give to it, and no others. -/
theorem filter_located {α : Type} {yields : Position → Part → Option α} {P : α → Prop}
    [DecidablePred P] (divided : Divided parts) {start : Position}
    (far_iff : ∀ before p after x, parts = before ++ p :: after → p.Ends (texts after) →
      yields (start.after (texts before)) p = some x → (P x ↔ p.IsFar (texts after))) :
    ((located start parts).filterMap fun (place, p) => yields place p).filter P =
      (located start (settled parts)).filterMap fun (place, p) => yields place p := by
  induction parts generalizing start with
  | nil => rfl
  | cons p parts ih =>
      obtain ⟨ends, divided⟩ := divided
      have first := far_iff [] p parts
      have later : ∀ before q after x, parts = before ++ q :: after → q.Ends (texts after) →
          yields ((start.after p.text).after (texts before)) q = some x →
          (P x ↔ q.IsFar (texts after)) := by
        intro before q after x split ends found
        rw [← Position.after_append] at found
        exact far_iff (p :: before) q after x (by rw [split]; rfl) ends found
      by_cases far : p.IsFar (texts parts)
      · have kept : (yields start p).toList.filter P = (yields start p).toList := by
          refine List.filter_eq_self.mpr fun x member => ?_
          rw [decide_eq_true_eq]
          exact (first x rfl ends (Option.mem_toList.mp member)).mpr far
        rw [settled, if_pos far, filterMap_located_cons, filterMap_located_cons, List.filter_append,
          kept, ih divided later]
      · rw [settled, if_neg far]
        refine List.filter_eq_nil_iff.mpr fun x member => ?_
        obtain ⟨⟨place, q⟩, among, found⟩ := List.mem_filterMap.mp member
        rw [decide_eq_true_eq]
        rcases List.mem_cons.mp among with same | behind
        · cases same
          exact fun holds => far ((first x rfl ends found).mp holds)
        · obtain ⟨before, after, rfl, rfl⟩ := mem_located_iff.mp behind
          intro holds
          have ends := divided.right.1
          exact divided.near_of_near far rfl ((later before q after x rfl ends found).mp holds)

/-! ## Tokens and faults of settled parts -/

/-- A number without a fraction is a number in which there is no point. -/
theorem whole_iff (l : Lexeme) : (l.kind = .number ∧ '.' ∉ l.text) ↔ ∃ d, l = .whole d := by
  constructor
  · rintro ⟨number, absent⟩
    cases l with
    | whole d => exact ⟨d, rfl⟩
    | decimal d f => exact absurd (by simp [Lexeme.text]) absent
    | word w => exact absurd number (Kind.ofWord_ne_number _)
    | _ => cases number
  · rintro ⟨d, rfl⟩
    exact ⟨rfl, fun member => absurd (d.ne_point _ member) (by decide)⟩

/-- A token is settled if its part is far from the end. -/
theorem isSettled_iff {before after : List Char} {l : Lexeme} {t : Token}
    (split : source.toList = before ++ l.text ++ after)
    (found : (lexeme l).token? (Position.start.after before) = some t) :
    t.IsSettled source ↔ (lexeme l).IsFar after := by
  cases found
  have size : source.utf8ByteSize = byteLength (before ++ l.text) + byteLength after := by
    rw [← byteLength_toList, split, byteLength_append]
  have stop : ((Position.start.after before).span l.text).stop = byteLength (before ++ l.text) := by
    rw [Position.stop_span, ← Position.after_append, Position.offset_start_after]
  have some : byteLength (before ++ l.text) < source.utf8ByteSize ↔ after ≠ [] := by
    rw [size, Nat.lt_add_right_iff_pos, Nat.pos_iff_ne_zero, Ne, byteLength_eq_zero_iff]
  have rest : source.toByteArray.extract (byteLength (before ++ l.text)) source.utf8ByteSize =
      ".".toByteArray ↔ after = ['.'] := by
    rw [size, extract_of_split (split.trans (List.append_nil _).symm),
      String.toByteArray_inj, ← String.toList_inj, String.toList_ofList]
    rfl
  have whole := whole_iff l
  simp only [Token.IsSettled, Lexeme.spelling, String.toList_ofList, stop, some, rest]
  rw [← and_assoc (a := l.kind = .number), whole]
  cases l with
  | whole d => simp [IsFar, Lexeme.kind]
  | _ => simp [IsFar, Lexeme.kind_ne_eof]

theorem filter_tokens (divided : Divided parts) (split : texts parts = source.toList) :
    (outcome parts).tokens.filter (·.IsSettled source) = found (settled parts) := by
  have eof : ([Token.eof (Position.start.after (texts parts))]).filter (·.IsSettled source) = [] := by
    simp [Token.IsSettled, Token.eof]
  rw [outcome, List.filter_append, eof, List.append_nil]
  refine filter_located divided ?_
  rintro before p after t rfl - found
  cases p with
  | lexeme l =>
      refine isSettled_iff ?_ found
      rw [← split, texts_append, texts_cons, List.append_assoc]
      rfl
  | _ => cases found

theorem filter_faults (divided : Divided parts) :
    (outcome parts).faults.filter (·.cause ≠ .unclosed) = (outcome (settled parts)).faults := by
  refine filter_located divided ?_
  rintro before p after f rfl ends found
  cases p with
  | stray c =>
      cases found
      exact iff_of_true nofun trivial
  | unclosed body =>
      cases found
      exact iff_of_false (fun other => other rfl) (fun far => far ends.2)
  | lexeme | trivia => cases found

/-! ## What is left -/

/-- What parts yield behind settled parts. -/
theorem exists_unsettled_tokens (divided : Divided parts) (split : texts parts = source.toList) :
    ∃ last, found parts = found (settled parts) ++ last ∧ Token.Unsettled source last := by
  obtain ⟨last, whole, shape⟩ := divided.exists_unsettled
  let place := Position.start.after (texts (settled parts))
  have size : (place.after (texts last)).offset = source.utf8ByteSize := by
    rw [← Position.after_append, ← texts_append, ← whole, Position.offset_start_after, split,
      byteLength_toList]
  refine ⟨(located place last).filterMap fun (place, p) => p.token? place, ?_, ?_⟩
  · rw [found, found, ← List.filterMap_append, ← located_append, ← whole]
  · rcases shape with rfl | ⟨p, rfl⟩ | ⟨d, rfl⟩
    · exact .none
    · rw [filterMap_located_cons]
      cases found : p.token? place with
      | none => exact .none
      | some t =>
          refine .last t ?_
          rw [(eq_of_token? found).1, Position.stop_span, ← size, texts_cons, texts_nil,
            List.append_nil]
    · have whole := (whole_iff (.whole d)).mpr ⟨d, rfl⟩
      refine .point _ _ whole.1 ?_ rfl (Position.stop_span _ _).symm ?_
      · rw [Lexeme.spelling, String.toList_ofList]
        exact whole.2
      · rw [Position.stop_span, ← Position.after_append, ← size]
        simp [texts, text]

theorem exists_unsettled_faults (divided : Divided parts) :
    ∃ last, (outcome parts).faults = (outcome (settled parts)).faults ++ last ∧ last.length ≤ 1 := by
  obtain ⟨last, whole, shape⟩ := divided.exists_unsettled
  let place := Position.start.after (texts (settled parts))
  refine ⟨(located place last).filterMap fun (place, p) => p.fault? place, ?_, ?_⟩
  · rw [outcome, outcome, ← List.filterMap_append, ← located_append, ← whole]
  · rcases shape with rfl | ⟨p, rfl⟩ | ⟨d, rfl⟩
    · exact Nat.zero_le 1
    · exact List.length_filterMap_le _ _
    · exact Nat.zero_le 1

end Part

/-! ## Scans -/

/-- Whatever is added to a source, its settled tokens come first in the longer one, unchanged, and
so do the faults of its stray characters. Of its other tokens there is one at most, at the end, or a
number without a fraction and a point at the end; and one fault at most. -/
theorem scan_append (a b : String) :
    (scan a).tokens.filter (·.IsSettled a) <+: (scan (a ++ b)).tokens ∧
      (scan a).faults.filter (·.cause ≠ .unclosed) <+: (scan (a ++ b)).faults ∧
      (∃ last, (scan a).tokens.dropLast = (scan a).tokens.filter (·.IsSettled a) ++ last ∧
        Token.Unsettled a last) ∧
      ∃ last, (scan a).faults = (scan a).faults.filter (·.cause ≠ .unclosed) ++ last ∧
        last.length ≤ 1 := by
  obtain ⟨parts, divided, split⟩ := exists_divided a.toList
  obtain ⟨others, longer, joined⟩ := divided.exists_append b.toList
  have scanned := scan_eq_outcome divided split
  have scanned' : scan (a ++ b) = Part.outcome (Part.settled parts ++ others) :=
    scan_eq_outcome longer (by rw [joined, split, String.toList_append])
  rw [scanned, scanned', Part.filter_tokens divided split, Part.filter_faults divided,
    Part.tokens_append, Part.faults_append, Part.dropLast_tokens]
  exact ⟨List.prefix_append _ _, List.prefix_append _ _, Part.exists_unsettled_tokens divided split,
    Part.exists_unsettled_faults divided⟩

end LoxLexer
