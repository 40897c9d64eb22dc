-- SUMMARY: The bytes of a string that is split between characters: offsets, stretches and line breaks as its UTF-8 encoding has them.
import LoxLexer.Span

/-!
# Bytes of a source

Spans count bytes, while the grammar speaks of characters. Wherever a list of
characters is split, the measures of its parts are offsets in the encoding.
-/

namespace LoxLexer

/-! ## Offsets -/

theorem utf8ByteSize_ofList (text : List Char) :
    (String.ofList text).utf8ByteSize = byteLength text := by
  induction text with
  | nil => rfl
  | cons c text ih =>
      rw [String.ofList_cons, String.utf8ByteSize_append, String.utf8ByteSize_singleton, ih]
      rfl

theorem byteLength_toList (s : String) : byteLength s.toList = s.utf8ByteSize := by
  rw [← utf8ByteSize_ofList, String.ofList_toList]

section Splits

variable {s : String} {before text after : List Char}

/-- A split between characters is a boundary of characters. -/
theorem isValid_of_split (split : s.toList = before ++ after) :
    String.Pos.Raw.IsValid s ⟨byteLength before⟩ := by
  refine String.Pos.Raw.isValid_iff_exists_append.mpr
    ⟨String.ofList before, String.ofList after, ?_, ?_⟩
  · rw [← String.ofList_append, ← split, String.ofList_toList]
  · rw [← utf8ByteSize_ofList]
    rfl

/-- The bytes of a stretch are the encoding of the characters that stand there. -/
theorem extract_of_split (split : s.toList = before ++ text ++ after) :
    s.toByteArray.extract (byteLength before) (byteLength before + byteLength text) =
      (String.ofList text).toByteArray := by
  have joined : s = String.ofList before ++ String.ofList text ++ String.ofList after := by
    rw [← String.ofList_append, ← String.ofList_append, ← split, String.ofList_toList]
  rw [joined, String.toByteArray_append, String.toByteArray_append, ByteArray.append_assoc]
  rw [← utf8ByteSize_ofList, ← utf8ByteSize_ofList, ← String.size_toByteArray,
    ← String.size_toByteArray]
  have shifted := ByteArray.extract_append_size_add (a := (String.ofList before).toByteArray)
    (b := (String.ofList text).toByteArray ++ (String.ofList after).toByteArray)
    (i := 0) (j := (String.ofList text).toByteArray.size)
  rw [Nat.add_zero] at shifted
  rw [shifted, ByteArray.extract_append_eq_left rfl]

end Splits

/-! ## ASCII bytes -/

/-- An ASCII byte in the encoding of a character is all of the encoding: all bytes of a character
that has more than one are greater. -/
theorem eq_of_mem_utf8EncodeChar {c : Char} {b : UInt8} (ascii : b.toNat < 128)
    (member : b ∈ String.utf8EncodeChar c) :
    String.utf8EncodeChar c = [b] ∧ c.val.toNat = b.toNat := by
  have continued : ∀ n, 128 ≤ n → n < 256 → b ≠ UInt8.ofNat n := by
    rintro n low high rfl
    rw [UInt8.toNat_ofNat_of_lt' high] at ascii
    omega
  unfold String.utf8EncodeChar at member ⊢
  by_cases small : c.val.toNat ≤ 127
  · rw [if_pos small] at member ⊢
    obtain rfl := List.mem_singleton.mp member
    exact ⟨rfl, (UInt8.toNat_ofNat_of_lt' (show c.val.toNat < 256 by omega)).symm⟩
  · refine absurd member ?_
    rw [if_neg small]
    split
    · simp only [List.mem_cons, List.not_mem_nil, or_false, not_or]
      exact ⟨continued _ (by omega) (by omega), continued _ (by omega) (by omega)⟩
    · split
      · simp only [List.mem_cons, List.not_mem_nil, or_false, not_or]
        exact ⟨continued _ (by omega) (by omega), continued _ (by omega) (by omega),
          continued _ (by omega) (by omega)⟩
      · simp only [List.mem_cons, List.not_mem_nil, or_false, not_or]
        exact ⟨continued _ (by omega) (by omega), continued _ (by omega) (by omega),
          continued _ (by omega) (by omega), continued _ (by omega) (by omega)⟩

/-! ## Line breaks -/

/-- The number of bytes that are line breaks. -/
def lineFeeds (bytes : ByteArray) : Nat := bytes.data.toList.count 10

/-- Among the bytes of a character is a line break only if it is one itself. -/
theorem count_utf8EncodeChar (c : Char) :
    (String.utf8EncodeChar c).count 10 = [c].count '\n' := by
  by_cases newline : c = '\n'
  · subst newline
    rfl
  · have absent : [c].count '\n' = 0 := List.count_eq_zero.mpr (by simpa using Ne.symm newline)
    rw [absent, List.count_eq_zero]
    intro member
    obtain ⟨-, code⟩ := eq_of_mem_utf8EncodeChar (by decide) member
    exact newline (Char.val_inj.mp (UInt32.toNat_inj.mp code))

theorem lineFeeds_ofList (text : List Char) :
    lineFeeds (String.ofList text).toByteArray = lineBreaks text := by
  rw [String.toByteArray_ofList, lineFeeds, List.utf8Encode, List.toList_data_toByteArray]
  induction text with
  | nil => rfl
  | cons c text ih =>
      rw [List.flatMap_cons, List.count_append, ih, count_utf8EncodeChar, lineBreaks, lineBreaks,
        ← List.count_append]
      rfl

end LoxLexer
