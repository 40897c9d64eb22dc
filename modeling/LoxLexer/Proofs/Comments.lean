-- SUMMARY: Comments are not seen: spaces in their place, or another text of as many bytes in them, leave the scan of a source as it is.
import LoxLexer.Proofs.Blanking
import LoxLexer.Proofs.Modes

/-!
# Comments

What belongs to a comment is told by the modes of reading, one character at a time, and not by the
parts of the text. The two agree: with spaces for all these characters a text has spaces in the
place of each part that is a comment, and every other part is as it was.
-/

namespace LoxLexer

/-! ## Texts without comments -/

/-- Whether a character that is read in a mode belongs to a comment: it leads to the mode of
comments, or it is the slash in front of one that does. -/
def Mode.Hides (m : Mode) (c : Char) (rest : List Char) : Prop :=
  m.next c = comment ∨ m.next c = slash ∧ rest.head? = some '/'

instance (m : Mode) (c : Char) (rest : List Char) : Decidable (m.Hides c rest) :=
  inferInstanceAs (Decidable (_ ∨ _ ∧ _))

/-- A text that is read in a mode, with spaces for all that belongs to comments. -/
def withoutComments (m : Mode) : List Char → List Char
  | [] => []
  | c :: rest =>
    (if m.Hides c rest then spaces c.utf8Size else [c]) ++ withoutComments (m.next c) rest

section Texts

variable {m : Mode} {a b text : List Char}

/-- Only a slash at the end of a text looks at what follows the text. -/
theorem withoutComments_append (apart : m.after a = .slash → b.head? ≠ some '/') :
    withoutComments m (a ++ b) = withoutComments m a ++ withoutComments (m.after a) b := by
  induction a generalizing m with
  | nil => rfl
  | cons c a ih =>
      have head : m.Hides c (a ++ b) ↔ m.Hides c a := by
        cases a with
        | nil =>
            refine or_congr_right (and_congr_right fun slash => ?_)
            exact iff_of_false (apart slash) (by simp)
        | cons d a => rfl
      rw [List.cons_append, withoutComments, withoutComments, ih apart, Mode.after_cons,
        List.append_assoc, if_congr head rfl rfl]

/-- Of what follows a text only the first character matters to the text. -/
theorem withoutComments_append_congr {b' : List Char} (head : b.head? = b'.head?)
    (same : withoutComments (m.after a) b = withoutComments (m.after a) b') :
    withoutComments m (a ++ b) = withoutComments m (a ++ b') := by
  induction a generalizing m with
  | nil => exact same
  | cons c a ih =>
      have first : (a ++ b).head? = (a ++ b').head? := by
        cases a with
        | nil => exact head
        | cons d a => rfl
      have hides : m.Hides c (a ++ b) ↔ m.Hides c (a ++ b') := by rw [Mode.Hides, Mode.Hides, first]
      rw [List.cons_append, List.cons_append, withoutComments, withoutComments, ih same,
        if_congr hides rfl rfl]

/-- What is read in code throughout, or in a string, is kept. -/
theorem withoutComments_of_stays (stays : ∀ c ∈ text, m.next c = m) (seen : m = .code ∨ m = .string) :
    withoutComments m text = text := by
  induction text with
  | nil => rfl
  | cons c text ih =>
      obtain ⟨first, others⟩ := List.forall_mem_cons.mp stays
      have kept : ¬ m.Hides c text := by
        rw [Mode.Hides, first]
        rcases seen with rfl | rfl <;> simp
      rw [withoutComments, if_neg kept, first, ih others]
      rfl

theorem withoutComments_of_plain (plain : ∀ c ∈ text, c ≠ '"' ∧ c ≠ '/') :
    withoutComments .code text = text := by
  refine withoutComments_of_stays ?_ (.inl rfl)
  intro c member
  obtain ⟨quote, slash⟩ := plain c member
  rw [Mode.next, if_neg quote, if_neg slash]

/-- What is read in a comment is not. -/
theorem withoutComments_of_hidden (stays : ∀ c ∈ text, Mode.comment.next c = .comment) :
    withoutComments .comment text = spaces (byteLength text) := by
  induction text with
  | nil => rfl
  | cons c text ih =>
      obtain ⟨first, others⟩ := List.forall_mem_cons.mp stays
      rw [withoutComments, if_pos (.inl first), first, ih others, byteLength_cons, spaces, spaces,
        spaces, List.replicate_append_replicate]

theorem withoutComments_opened {body : List Char} (absent : '"' ∉ body) :
    withoutComments .code ('"' :: body) = '"' :: body := by
  have inside := withoutComments_of_stays (Mode.next_of_not_mem absent) (.inr rfl)
  rw [withoutComments, if_neg (show ¬ Mode.code.Hides '"' body by simp [Mode.Hides, Mode.next])]
  exact congrArg _ inside

theorem Mode.Meets.withoutComments_eq (meets : m.Meets text.head?) :
    withoutComments m text = withoutComments .code text := by
  cases text with
  | nil => rfl
  | cons c text =>
      have hides : m.Hides c text ↔ Mode.code.Hides c text := by
        rw [Mode.Hides, Mode.Hides, meets.next_eq]
      rw [withoutComments, withoutComments, meets.next_eq, if_congr hides rfl rfl]

/-- Two slashes outside strings and comments open a comment, which reaches over its line. -/
theorem withoutComments_slashes (outside : m.IsExposed) {body : List Char} (absent : '\n' ∉ body)
    (boundary : ∀ c ∈ b.head?, c = '\n') :
    withoutComments m ('/' :: '/' :: body ++ b) =
      spaces (byteLength ('/' :: '/' :: body)) ++ withoutComments .code b := by
  have stays := Mode.next_of_no_newline absent
  have rest : withoutComments .comment (body ++ b) =
      spaces (byteLength body) ++ withoutComments .code b := by
    have meets : Mode.comment.Meets b.head? := boundary
    rw [withoutComments_append (by simp [Mode.after_of_stays stays]), Mode.after_of_stays stays,
      withoutComments_of_hidden stays, meets.withoutComments_eq]
  have slash : ' ' :: ' ' :: spaces (byteLength body) = spaces (byteLength ('/' :: '/' :: body)) := by
    have size : '/'.utf8Size = 1 := rfl
    rw [byteLength_cons, byteLength_cons, size, ← Nat.add_assoc, Nat.add_comm]
    rfl
  rw [← slash, List.cons_append, List.cons_append, List.cons_append, List.cons_append, ← rest]
  rcases outside with rfl | rfl <;> rfl

end Texts

/-! ## Texts of parts -/

theorem Lexeme.withoutComments_text (l : Lexeme) : withoutComments .code l.text = l.text := by
  cases l with
  | mark m => cases m <;> decide
  | word w => exact withoutComments_of_plain w.plain
  | whole d => exact withoutComments_of_plain d.plain
  | decimal d f =>
      apply withoutComments_of_plain
      exact List.forall_mem_append.mpr ⟨d.plain, List.forall_mem_cons.mpr ⟨by decide, f.plain⟩⟩
  | quoted body =>
      have opened := Mode.after_opened body.absent
      rw [Lexeme.text, withoutComments_append (by simp [opened]), opened,
        withoutComments_opened body.absent]
      rfl

namespace Part

def isComment : Part → Bool
  | trivia (.comment _) => true
  | lexeme _ | trivia (.blank _) | stray _ | unclosed _ => false

theorem isComment_iff {p : Part} : p.isComment = true ↔ ∃ body, p = .trivia (.comment body) := by
  fun_cases isComment p <;> simp

variable {p : Part} {parts : List Part} {rest : List Char}

theorem Ends.withoutComments_text (ends : p.Ends rest) :
    withoutComments .code p.text = texts (p.blanked (·.isComment)) := by
  rw [texts_blanked]
  cases p with
  | lexeme l => exact l.withoutComments_text
  | trivia t =>
      cases t with
      | blank b => cases b <;> decide
      | comment body =>
          have comment := withoutComments_slashes (b := []) (.inl rfl) body.absent (by simp)
          rwa [List.append_nil, withoutComments, List.append_nil] at comment
  | stray c =>
      apply withoutComments_of_plain
      exact List.forall_mem_singleton.mpr (ne_of_unknown ((Lead.of_eq_stray_iff c).mp ends))
  | unclosed body => exact withoutComments_opened ends.1

end Part

theorem Divided.withoutComments_texts {parts : List Part} (divided : Divided parts) :
    withoutComments .code (Part.texts parts) = Part.texts (Part.blankedAll (·.isComment) parts) := by
  induction parts with
  | nil => rfl
  | cons p parts ih =>
      obtain ⟨ends, divided⟩ := divided
      have apart : Mode.code.after p.text = .slash → (Part.texts parts).head? ≠ some '/' := by
        intro slash
        have meets := ends.meets
        rwa [← ends.after_text, slash] at meets
      rw [Part.texts_cons, withoutComments_append apart, ends.withoutComments_text, ends.after_text,
        ends.meets.withoutComments_eq, ih divided, Part.blankedAll_cons, Part.texts_append]

/-! ## Scans -/

theorem scan_withoutComments (source : String) :
    scan (String.ofList (withoutComments .code source.toList)) = scan source := by
  obtain ⟨parts, divided, split⟩ := exists_divided source.toList
  have inLine : ∀ p ∈ parts, p.isComment = true → '\n' ∉ p.text := by
    intro p _ comment
    obtain ⟨body, rfl⟩ := Part.isComment_iff.mp comment
    simp [Part.text, Trivia.text, body.absent]
  have nothing (place : Position) (p : Part) (comment : p.isComment = true) :
      p.token? place = none ∧ p.fault? place = none := by
    obtain ⟨body, rfl⟩ := Part.isComment_iff.mp comment
    exact ⟨rfl, rfl⟩
  obtain ⟨tokens, faults⟩ :=
    divided.scan_blankedAll inLine (fun place p comment => (nothing place p comment).1) split
  have kept (place : Position) (p : Part) :
      (if p.isComment = true then none else p.fault? place) = p.fault? place := by
    by_cases comment : p.isComment = true
    · exact (if_pos comment).trans (nothing place p comment).2.symm
    · exact if_neg comment
  simp only [kept] at faults
  rw [← split, divided.withoutComments_texts, Outcome.mk.injEq]
  refine ⟨tokens, faults.trans ?_⟩
  rw [scan_eq_outcome divided split, Part.outcome]

/-- With spaces in the place of its comments a source has the same tokens and faults, in every
field. So sources that become the same text have the same scan, and in particular a comment may say
anything else in as many bytes. -/
theorem comments_are_not_seen :
    (∀ source : String,
      scan (String.ofList (withoutComments .code source.toList)) = scan source) ∧
    (∀ a b : String, withoutComments .code a.toList = withoutComments .code b.toList →
      scan a = scan b) ∧
    ∀ before body other after : String, (Mode.code.after before.toList).IsExposed →
      '\n' ∉ body.toList → '\n' ∉ other.toList → body.utf8ByteSize = other.utf8ByteSize →
      (∀ c ∈ after.toList.head?, c = '\n') →
        scan (before ++ "//" ++ body ++ after) = scan (before ++ "//" ++ other ++ after) := by
  have same (a b : String) (alike : withoutComments .code a.toList = withoutComments .code b.toList) :
      scan a = scan b := by
    rw [← scan_withoutComments a, alike, scan_withoutComments]
  refine ⟨scan_withoutComments, same, ?_⟩
  intro before body other after outside absent absent' size boundary
  apply same
  have text (comment : String) : (before ++ "//" ++ comment ++ after).toList =
      before.toList ++ ('/' :: '/' :: comment.toList ++ after.toList) := by simp
  rw [text, text]
  refine withoutComments_append_congr rfl ?_
  rw [withoutComments_slashes outside absent boundary, withoutComments_slashes outside absent' boundary]
  simp only [byteLength_cons, byteLength_toList, size]

/-- Slashes in a string, a division, and a comment with a quote and a character of two bytes. -/
theorem comments_are_not_seen_quote :
    let before := "\"//\"/1 "
    (Mode.code.after before.toList).IsExposed ∧
      withoutComments .code (before ++ "// \"é@\n2").toList =
        withoutComments .code (before ++ "//x//\"\"\n2").toList ∧
      scan (before ++ "//" ++ " \"é@" ++ "\n2") = scan (before ++ "//" ++ "x//\"\"" ++ "\n2") ∧
      scan (before ++ "// \"é@\n2") = scan (before ++ "//x//\"\"\n2") := by
  intro before
  have outside : (Mode.code.after before.toList).IsExposed := by decide
  have alike : withoutComments .code (before ++ "// \"é@\n2").toList =
      withoutComments .code (before ++ "//x//\"\"\n2").toList := by decide
  refine ⟨outside, alike, ?_, comments_are_not_seen.2.1 _ _ alike⟩
  exact comments_are_not_seen.2.2 before " \"é@" "x//\"\"" "\n2" outside (by decide) (by decide)
    (by decide) (by simp)

end LoxLexer
