-- SUMMARY: A source that is cut where a token or a fault begins or ends is scanned as its two halves are.
import LoxLexer.Proofs.Lookahead
import LoxLexer.Proofs.Joining

/-!
# Cuts

Between two parts a source can be cut. The parts in front of the cut see less than before, so they
end where they did; the parts behind it never saw what was in front of them. Each half is divided
into its own parts, and a scan of the second half finds everything at a distance.
-/

namespace LoxLexer

/-! ## Cuts of a text -/

/-- A cut of a text is told by the number of bytes in front of it. -/
theorem eq_of_cut {a b a' b' : List Char} (same : a ++ b = a' ++ b')
    (size : byteLength a = byteLength a') : a = a' ∧ b = b' := by
  rcases List.append_eq_append_iff.mp same with ⟨mid, rfl, rfl⟩ | ⟨mid, rfl, rfl⟩
  · obtain rfl : mid = [] := byteLength_eq_zero_iff.mp (by simpa using size)
    simp
  · obtain rfl : mid = [] := byteLength_eq_zero_iff.mp (by simpa using size)
    simp

/-! ## Boundaries -/

/-- Whether the span of a token or of a fault begins or ends at an offset. -/
def Outcome.IsBoundary (o : Outcome) (offset : Nat) : Prop :=
  ∃ s ∈ o.spans, offset = s.offset ∨ offset = s.stop

namespace Part

variable {parts a b : List Part} {offset : Nat}

/-- At a boundary one part ends and another begins. -/
theorem exists_cut_of_boundary (boundary : (outcome parts).IsBoundary offset) :
    ∃ a b, parts = a ++ b ∧ byteLength (texts a) = offset := by
  obtain ⟨s, member, here⟩ := boundary
  obtain ⟨before, p, after, split, -, rfl⟩ := mem_spans_iff.mp member
  rcases here with rfl | rfl
  · exact ⟨before, p :: after, split, (Position.offset_start_after _).symm⟩
  · refine ⟨before ++ [p], after, by simp [split], ?_⟩
    rw [Position.stop_span, ← Position.after_append, Position.offset_start_after, texts_append]
    simp

/-- Parts that are cut in two are scanned as the two halves are. -/
theorem outcome_append (a b : List Part) :
    (outcome (a ++ b)).tokens =
        (outcome a).tokens.dropLast ++ (outcome b).tokens.map (Token.moved (.of (texts a))) ∧
      (outcome (a ++ b)).faults =
        (outcome a).faults ++ (outcome b).faults.map (Fault.moved (.of (texts a))) := by
  rw [dropLast_tokens]
  exact ⟨tokens_append a b, faults_append a b⟩

end Part

/-! ## Scans -/

/-- Every offset at which a token or a fault begins or ends is a place where the source can be cut,
and then the two halves are scanned as before: the first one up to its own end, the second one as if
it began there, moved by the bytes and the lines of the first. -/
theorem scan_cut (source : String) (offset : Nat) (boundary : (scan source).IsBoundary offset) :
    (∃ a b : String, source = a ++ b ∧ a.utf8ByteSize = offset) ∧
    ∀ a b : String, source = a ++ b → a.utf8ByteSize = offset →
      let d : Distance := ⟨offset, lineBreaks a.toList⟩
      (scan source).tokens = (scan a).tokens.dropLast ++ (scan b).tokens.map (Token.moved d) ∧
        (scan source).faults = (scan a).faults ++ (scan b).faults.map (Fault.moved d) := by
  obtain ⟨parts, divided, split⟩ := exists_divided source.toList
  have scanned := scan_eq_outcome divided split
  rw [scanned] at boundary ⊢
  obtain ⟨before, after, rfl, size⟩ := Part.exists_cut_of_boundary boundary
  rw [Part.texts_append] at split
  constructor
  · refine ⟨String.ofList (Part.texts before), String.ofList (Part.texts after), ?_, ?_⟩
    · rw [← String.ofList_append, split, String.ofList_toList]
    · rw [utf8ByteSize_ofList, size]
  · rintro a b rfl here d
    rw [String.toList_append] at split
    obtain ⟨first, second⟩ := eq_of_cut split (by rw [size, byteLength_toList, here])
    have distance : Distance.of (Part.texts before) = d := by
      rw [Distance.of, size, first]
    rw [scan_eq_outcome divided.left first, scan_eq_outcome divided.right second, ← distance]
    exact Part.outcome_append before after

/-- Between a number and its point, with a character of two bytes and a line break in front of it. -/
theorem scan_cut_point :
    (scan "é\n12.x").IsBoundary 5 ∧
      (scan "é\n12.x").tokens = (scan "é\n12").tokens.dropLast ++
        (scan ".x").tokens.map (Token.moved ⟨5, 1⟩) ∧
      (scan "é\n12.x").faults = (scan "é\n12").faults ++ (scan ".x").faults.map (Fault.moved ⟨5, 1⟩) := by
  have boundary : (scan "é\n12.x").IsBoundary 5 := ⟨⟨3, 2⟩, by decide +kernel, .inr rfl⟩
  exact ⟨boundary, (scan_cut "é\n12.x" 5 boundary).2 "é\n12" ".x" rfl rfl⟩

end LoxLexer
