-- SUMMARY: Spaces in the place of all stray characters leave the tokens of a scan as they are, and of its faults only an unclosed string.
import LoxLexer.Proofs.Blanking
import LoxLexer.Proofs.Modes
import LoxLexer.Proofs.Tiling

/-!
# Recovery

Behind a stray character a scan goes on as behind a space. So a source in which every stray
character gives way to spaces has the same tokens at the same places, and the only fault that can
be left is a string that is never closed.

Where the stray characters are is read off the faults, by offset. No other part covers such an
offset, since spans are apart.
-/

namespace LoxLexer

/-! ## Texts without stray characters -/

/-- Whether the fault is about a stray character at an offset. -/
def Fault.IsStrayAt (f : Fault) (offset : Nat) (c : Char) : Prop :=
  f.cause = .stray c ∧ f.span.offset = offset

instance (f : Fault) (offset : Nat) (c : Char) : Decidable (f.IsStrayAt offset c) :=
  inferInstanceAs (Decidable (_ ∧ _))

/-- A text from an offset on, with spaces for each character that one of the faults is about. -/
def withoutStrays (faults : List Fault) (offset : Nat) : List Char → List Char
  | [] => []
  | c :: rest =>
    (if ∃ f ∈ faults, f.IsStrayAt offset c then spaces c.utf8Size else [c]) ++
      withoutStrays faults (offset + c.utf8Size) rest

section Texts

variable (faults : List Fault)

theorem withoutStrays_append (offset : Nat) (a b : List Char) :
    withoutStrays faults offset (a ++ b) =
      withoutStrays faults offset a ++ withoutStrays faults (offset + byteLength a) b := by
  induction a generalizing offset with
  | nil => rfl
  | cons c a ih =>
      rw [List.cons_append, withoutStrays, withoutStrays, ih, List.append_assoc, byteLength_cons,
        Nat.add_assoc]

/-- A text that no fault is about stays as it is. -/
theorem withoutStrays_eq_self {faults : List Fault} {offset : Nat} {text : List Char}
    (none : ∀ before c after, text = before ++ c :: after →
      ∀ f ∈ faults, ¬ f.IsStrayAt (offset + byteLength before) c) :
    withoutStrays faults offset text = text := by
  induction text generalizing offset with
  | nil => rfl
  | cons c text ih =>
      have here : ¬ ∃ f ∈ faults, f.IsStrayAt offset c := by
        rintro ⟨f, member, stray⟩
        exact none [] c text rfl f member stray
      have later : withoutStrays faults (offset + c.utf8Size) text = text := by
        apply ih
        rintro before d after rfl f member
        have absent := none (c :: before) d after rfl f member
        rwa [byteLength_cons, ← Nat.add_assoc] at absent
      rw [withoutStrays, if_neg here, later]
      rfl

end Texts

namespace Part

def isStray : Part → Bool
  | stray _ => true
  | lexeme _ | trivia _ | unclosed _ => false

theorem isStray_iff {p : Part} : p.isStray = true ↔ ∃ c, p = .stray c := by
  cases p <;> simp [isStray]

/-- A fault that is about a stray character is that of a stray part. -/
theorem eq_stray_of_fault? {place : Position} {p : Part} {f : Fault} {c : Char}
    (found : p.fault? place = some f) (cause : f.cause = .stray c) : p = .stray c := by
  cases p with
  | stray d =>
      cases found
      cases cause
      rfl
  | unclosed body =>
      cases found
      cases cause
  | lexeme | trivia => cases found

/-! ## Texts of parts -/

variable {parts before after : List Part} {p : Part}

/-- A part that is not stray has no stray character inside. -/
theorem not_isStrayAt (split : parts = before ++ p :: after) (noStray : p.isStray = false)
    {left right : List Char} {c : Char} (inside : p.text = left ++ c :: right) {f : Fault}
    (member : f ∈ (outcome parts).faults) :
    ¬ f.IsStrayAt (byteLength (texts before) + byteLength left) c := by
  rintro ⟨cause, offset⟩
  obtain ⟨before', q, after', split', yields⟩ := mem_filterMap_located.mp member
  have stray := eq_stray_of_fault? yields cause
  rw [(eq_of_fault? yields).1] at offset
  rcases apart_of_split (split.symm.trans split') with ⟨-, rfl⟩ | apart
  · rw [stray] at noStray
    cases noStray
  · -- Both spans would cover the byte at which the character begins.
    have := byteLength_text_pos q
    have := c.utf8Size_pos
    have size := congrArg byteLength inside
    simp only [byteLength_append, byteLength_cons] at size
    simp only [Span.Apart, Span.stop, Position.span, Position.offset_start_after] at apart offset
    omega

theorem withoutStrays_text (split : parts = before ++ p :: after) :
    withoutStrays (outcome parts).faults (byteLength (texts before)) p.text =
      texts (p.blanked (·.isStray)) := by
  rw [texts_blanked]
  cases kind : p.isStray with
  | true =>
      obtain ⟨c, rfl⟩ := isStray_iff.mp kind
      have found : ∃ f ∈ (outcome parts).faults, f.IsStrayAt (byteLength (texts before)) c := by
        refine ⟨_, mem_filterMap_located.mpr ⟨before, .stray c, after, split, rfl⟩, rfl, ?_⟩
        exact Position.offset_start_after _
      rw [text, withoutStrays, if_pos found]
      simp [withoutStrays]
  | false =>
      rw [if_neg Bool.false_ne_true]
      exact withoutStrays_eq_self fun _ _ _ inside _ member => not_isStrayAt split kind inside member

theorem withoutStrays_texts (split : parts = before ++ after) :
    withoutStrays (outcome parts).faults (byteLength (texts before)) (texts after) =
      texts (blankedAll (·.isStray) after) := by
  induction after generalizing before with
  | nil => rfl
  | cons p after ih =>
      have others := @ih (before ++ [p]) (by simp [split])
      rw [texts_append, byteLength_append, texts_cons, texts_nil, List.append_nil] at others
      rw [texts_cons, withoutStrays_append, withoutStrays_text split, others, blankedAll_cons,
        texts_append]

end Part

/-! ## Scans -/

/-- A scan takes a stray character for as many spaces as it has bytes: with the spaces in its place
the tokens are the same, each at its place, and of the faults there is left only that of an unclosed
string, if there is one. -/
theorem scan_withoutStrays (source : String) :
    let mended := String.ofList (withoutStrays (scan source).faults 0 source.toList)
    (scan mended).tokens = (scan source).tokens ∧
      (scan mended).faults = (scan source).faults.filter (·.cause = .unclosed) ∧
      (scan mended).faults.length ≤ 1 := by
  intro mended
  obtain ⟨parts, divided, split⟩ := exists_divided source.toList
  have scanned := scan_eq_outcome divided split
  have inLine : ∀ p ∈ parts, p.isStray = true → '\n' ∉ p.text := by
    intro p member stray
    obtain ⟨c, rfl⟩ := Part.isStray_iff.mp stray
    obtain ⟨before, after, rfl⟩ := List.append_of_mem member
    exact Part.newline_not_mem_stray divided.right.1
  have noToken (place : Position) (p : Part) (stray : p.isStray = true) : p.token? place = none := by
    obtain ⟨c, rfl⟩ := Part.isStray_iff.mp stray
    rfl
  have blanked : String.ofList (Part.texts (Part.blankedAll (·.isStray) parts)) = mended := by
    refine congrArg String.ofList ?_
    rw [scanned, ← split]
    exact (@Part.withoutStrays_texts parts [] parts rfl).symm
  obtain ⟨tokens, faults⟩ := divided.scan_blankedAll inLine noToken split
  rw [blanked] at tokens faults
  have left : (scan mended).faults = (scan source).faults.filter (·.cause = .unclosed) := by
    rw [faults, scanned, Part.outcome, List.filter_filterMap]
    refine congrArg (List.filterMap · _) (funext ?_)
    rintro ⟨place, p⟩
    cases p <;> rfl
  refine ⟨tokens, left, ?_⟩
  rw [left, scanned]
  exact (Part.outcome_followsModes divided).unique

example : withoutStrays (scan "1é.5#\"@").faults 0 "1é.5#\"@".toList = "1  .5 \"@".toList := by
  decide +kernel

end LoxLexer
