-- SUMMARY: The lines of a text, and that the bytes of a text split into the bytes of its lines.
import Mathlib.Data.List.Basic
import LoxLexer.Session
import LoxLexer.Proofs.Bytes

/-!
# Lines of an input

A line of a text is ended by a line break, which a carriage return may precede, or by the end of
the text. An input is split where the byte of a line break stands, before it is known to be text at
all. As no other character has that byte in its encoding, the lines are the same.
-/

namespace LoxLexer

/-! ## Lines of a text -/

/-- The lines that a text has. What follows the last line break is a line if it is not empty. -/
inductive HasLines : List Char → List String → Prop
  | none : HasLines [] []
  /-- The last line, which nothing ends. -/
  | unended {line : List Char} (nonempty : line ≠ []) (absent : '\n' ∉ line) :
    HasLines line [String.ofList line]
  | feed {line rest : List Char} {lines : List String} (absent : '\n' ∉ line)
    (noReturn : line.getLast? ≠ some '\r') (others : HasLines rest lines) :
    HasLines (line ++ '\n' :: rest) (String.ofList line :: lines)
  | returnFeed {line rest : List Char} {lines : List String} (absent : '\n' ∉ line)
    (others : HasLines rest lines) :
    HasLines (line ++ '\r' :: '\n' :: rest) (String.ofList line :: lines)

/-- What holds of a text if it holds of what follows the first line holds of every text. -/
@[elab_as_elim]
theorem induction_on_lines {α : Type} [DecidableEq α] (lineFeed carriageReturn : α)
    {motive : List α → Prop} (none : motive [])
    (unended : ∀ {line : List α}, line ≠ [] → lineFeed ∉ line → motive line)
    (feed : ∀ {line rest : List α}, lineFeed ∉ line → line.getLast? ≠ some carriageReturn →
      motive rest → motive (line ++ lineFeed :: rest))
    (returnFeed : ∀ {line rest : List α}, lineFeed ∉ line → motive rest →
      motive (line ++ carriageReturn :: lineFeed :: rest))
    (text : List α) : motive text := by
  induction size : text.length using Nat.strongRecOn generalizing text with
  | ind n ih =>
      by_cases ended : lineFeed ∈ text
      · obtain ⟨line, rest, rfl, absent⟩ := List.eq_append_cons_of_mem ended
        have shorter : rest.length < n := by
          rw [← size, List.length_append, List.length_cons]
          omega
        have others := ih _ shorter rest rfl
        by_cases last : line.getLast? = some carriageReturn
        · obtain ⟨line, rfl⟩ := List.getLast?_eq_some_iff.mp last
          rw [List.append_assoc]
          exact returnFeed (fun member => absent (List.mem_append_left _ member)) others
        · exact feed absent last others
      · by_cases empty : text = []
        · exact empty ▸ none
        · exact unended empty ended

/-- Every text has lines. -/
theorem exists_hasLines (text : List Char) : ∃ lines, HasLines text lines := by
  induction text using induction_on_lines '\n' '\r' with
  | none => exact ⟨_, .none⟩
  | unended nonempty absent => exact ⟨_, .unended nonempty absent⟩
  | feed absent noReturn ih =>
      obtain ⟨lines, others⟩ := ih
      exact ⟨_, .feed absent noReturn others⟩
  | returnFeed absent ih =>
      obtain ⟨lines, others⟩ := ih
      exact ⟨_, .returnFeed absent others⟩

/-! ## Bytes of a text -/

/-- The bytes of a text. -/
def encoding (text : List Char) : List UInt8 := text.flatMap String.utf8EncodeChar

theorem decode?_eq_some_iff {bytes : List UInt8} {source : String} :
    decode? bytes = some source ↔ bytes = encoding source.toList := by
  have same : source.toByteArray = (encoding source.toList).toByteArray := by
    rw [← String.ofList_toList (s := source), String.toByteArray_ofList, List.utf8Encode,
      String.toList_ofList]
    rfl
  rw [← List.toByteArray_inj, ← same, decode?, String.fromUTF8?]
  constructor
  · intro found
    split at found
    · cases found
      rfl
    · cases found
  · intro bytes
    have valid : source.toByteArray.IsValidUTF8 := source.isValidUTF8
    rw [bytes, dif_pos valid]
    rfl

section Encoding

variable {text line : List Char} {bytes : List UInt8}

/-- An ASCII byte is that of a character with its code. -/
theorem exists_of_mem_encoding {b : UInt8} (ascii : b.toNat < 128) (member : b ∈ encoding text) :
    ∃ c ∈ text, c.val.toNat = b.toNat := by
  obtain ⟨c, inside, member⟩ := List.mem_flatMap.mp member
  exact ⟨c, inside, (eq_of_mem_utf8EncodeChar ascii member).2⟩

theorem lineEnd_not_mem_encoding (absent : '\n' ∉ line) : lineEnd ∉ encoding line := by
  intro member
  obtain ⟨c, inside, code⟩ := exists_of_mem_encoding (by decide) member
  obtain rfl : c = '\n' := Char.val_inj.mp (UInt32.toNat_inj.mp code)
  exact absent inside

theorem getLast?_encoding_ne (noReturn : line.getLast? ≠ some '\r') :
    (encoding line).getLast? ≠ some 13 := by
  refine fun last => noReturn ?_
  obtain rfl | ⟨line, c, rfl⟩ := line.eq_nil_or_concat
  · cases last
  · rw [List.concat_eq_append, encoding, List.flatMap_append, List.flatMap_singleton,
      List.getLast?_append_of_ne_nil _ (String.utf8EncodeChar_ne_nil)] at last
    obtain ⟨-, code⟩ := eq_of_mem_utf8EncodeChar (by decide) (List.mem_of_getLast? last)
    obtain rfl : c = '\r' := Char.val_inj.mp (UInt32.toNat_inj.mp code)
    simp

end Encoding

/-! ## Lines of the bytes -/

/-- The lines that an input has, text or not. What follows the last line end is a line if it is not
empty. -/
inductive Lined : List UInt8 → List (List UInt8) → Prop
  | none : Lined [] []
  /-- The last line, which nothing ends. -/
  | unended {line : List UInt8} (nonempty : line ≠ []) (absent : lineEnd ∉ line) : Lined line [line]
  | feed {line rest : List UInt8} {lines : List (List UInt8)} (absent : lineEnd ∉ line)
    (noReturn : line.getLast? ≠ some 13) (others : Lined rest lines) :
    Lined (line ++ lineEnd :: rest) (line :: lines)
  | returnFeed {line rest : List UInt8} {lines : List (List UInt8)} (absent : lineEnd ∉ line)
    (others : Lined rest lines) : Lined (line ++ 13 :: lineEnd :: rest) (line :: lines)

section Lines

variable {input line : List UInt8} {lines : List (List UInt8)}

theorem inputLines_unended (nonempty : line ≠ []) (absent : lineEnd ∉ line) :
    inputLines line = [line] := by
  simp [inputLines, List.splitOn_eq_singleton absent, nonempty]

theorem inputLines_ended (absent : lineEnd ∉ line) (rest : List UInt8) :
    inputLines (line ++ lineEnd :: rest) = withoutReturn line :: inputLines rest := by
  obtain ⟨part, parts, split⟩ := List.exists_cons_of_ne_nil (List.splitOn_ne_nil lineEnd rest)
  simp only [inputLines, List.splitOn_append_cons_self_of_not_mem absent, split,
    List.dropLast_cons_cons, List.getLast?_cons_cons, List.map_cons, List.cons_append]

theorem Lined.inputLines_eq (h : Lined input lines) : inputLines input = lines := by
  induction h with
  | none => rfl
  | unended nonempty absent => exact inputLines_unended nonempty absent
  | feed absent noReturn others ih => rw [inputLines_ended absent, ih, withoutReturn, if_neg noReturn]
  | @returnFeed line rest lines absent others ih =>
      have unbroken : lineEnd ∉ line ++ [13] := by
        rw [List.mem_append, not_or]
        exact ⟨absent, by decide⟩
      have ended := inputLines_ended unbroken rest
      rw [List.append_assoc, ih] at ended
      simpa [withoutReturn] using ended

/-- Every input has lines. -/
theorem exists_lined (input : List UInt8) : ∃ lines, Lined input lines := by
  induction input using induction_on_lines lineEnd 13 with
  | none => exact ⟨_, .none⟩
  | unended nonempty absent => exact ⟨_, .unended nonempty absent⟩
  | feed absent noReturn ih =>
      obtain ⟨lines, others⟩ := ih
      exact ⟨_, .feed absent noReturn others⟩
  | returnFeed absent ih =>
      obtain ⟨lines, others⟩ := ih
      exact ⟨_, .returnFeed absent others⟩

theorem lined_inputLines (input : List UInt8) : Lined input (inputLines input) := by
  obtain ⟨lines, lined⟩ := exists_lined input
  rwa [lined.inputLines_eq]

theorem Lined.lineEnd_not_mem (h : Lined input lines) : ∀ line ∈ lines, lineEnd ∉ line := by
  induction h with
  | none => simp
  | unended nonempty absent => simpa using absent
  | feed absent noReturn others ih => exact List.forall_mem_cons.mpr ⟨absent, ih⟩
  | returnFeed absent others ih => exact List.forall_mem_cons.mpr ⟨absent, ih⟩

end Lines

/-- The lines of a text are those of its bytes. -/
theorem HasLines.lined {text : List Char} {lines : List String} (h : HasLines text lines) :
    Lined (encoding text) (lines.map fun line => encoding line.toList) := by
  induction h with
  | none => exact .none
  | @unended line nonempty absent =>
      have some : encoding line ≠ [] := by
        obtain ⟨c, tail, rfl⟩ := List.exists_cons_of_ne_nil nonempty
        simp [encoding, String.utf8EncodeChar_ne_nil]
      simpa using Lined.unended some (lineEnd_not_mem_encoding absent)
  | @feed line rest lines absent noReturn others ih =>
      have split : encoding (line ++ '\n' :: rest) = encoding line ++ lineEnd :: encoding rest := by
        rw [encoding, List.flatMap_append]
        rfl
      rw [split, List.map_cons, String.toList_ofList]
      exact .feed (lineEnd_not_mem_encoding absent) (getLast?_encoding_ne noReturn) ih
  | @returnFeed line rest lines absent others ih =>
      have split : encoding (line ++ '\r' :: '\n' :: rest) =
          encoding line ++ 13 :: lineEnd :: encoding rest := by
        rw [encoding, List.flatMap_append]
        rfl
      rw [split, List.map_cons, String.toList_ofList]
      exact .returnFeed (lineEnd_not_mem_encoding absent) ih

/-- The bytes of a text split into the bytes of its lines. -/
theorem HasLines.inputLines_encoding {text : List Char} {lines : List String}
    (h : HasLines text lines) :
    inputLines (encoding text) = lines.map fun line => encoding line.toList :=
  h.lined.inputLines_eq

end LoxLexer
