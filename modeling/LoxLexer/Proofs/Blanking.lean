-- SUMMARY: Spaces in the place of parts that are no tokens: the other parts are divided as before and found at the same places.
import LoxLexer.Proofs.Layout
import LoxLexer.Proofs.Lookahead
import LoxLexer.Proofs.Lines

/-!
# Spaces in the place of parts

Every part that may end in front of some character may also end in front of a space, and a space
means nothing. So parts on a line can give way to as many spaces as they have bytes: the parts
around them are divided as before, and what they yield is found at the same places.
-/

namespace LoxLexer

/-! ## Texts -/

/-- A space for each of so many bytes. -/
def spaces (bytes : Nat) : List Char := List.replicate bytes ' '

theorem byteLength_spaces (bytes : Nat) : byteLength (spaces bytes) = bytes := by
  induction bytes with
  | zero => rfl
  | succ n ih =>
      have space : ' '.utf8Size = 1 := rfl
      rw [spaces, List.replicate_succ, byteLength_cons, space, Nat.add_comm]
      exact congrArg (· + 1) ih

/-- The spaces for a character begin with a space. -/
theorem spaces_utf8Size (c : Char) : spaces c.utf8Size = ' ' :: spaces (c.utf8Size - 1) := by
  obtain ⟨n, size⟩ := Nat.exists_eq_add_one_of_ne_zero (Nat.ne_of_gt c.utf8Size_pos)
  rw [size]
  rfl

/-- The second text is the first one with spaces for some characters, but for no line break. -/
inductive Blanked : List Char → List Char → Prop
  | nil : Blanked [] []
  | keep (c : Char) {a b : List Char} (rest : Blanked a b) : Blanked (c :: a) (c :: b)
  | blank {c : Char} {a b : List Char} (inLine : c ≠ '\n') (rest : Blanked a b) :
    Blanked (c :: a) (spaces c.utf8Size ++ b)

section Texts

variable {a b : List Char}

theorem Blanked.keep_append (text : List Char) (h : Blanked a b) :
    Blanked (text ++ a) (text ++ b) := by
  induction text with
  | nil => exact h
  | cons c text ih => exact .keep c ih

theorem Blanked.blank_append {text : List Char} (inLine : '\n' ∉ text) (h : Blanked a b) :
    Blanked (text ++ a) (spaces (byteLength text) ++ b) := by
  induction text with
  | nil => exact h
  | cons c text ih =>
      rw [List.mem_cons, not_or] at inLine
      obtain ⟨first, others⟩ := inLine
      rw [byteLength_cons, spaces, ← List.replicate_append_replicate, List.append_assoc]
      exact .blank (Ne.symm first) (ih others)

/-- A first character is what it was, or a space. -/
theorem Blanked.forall_head {P : Char → Prop} (h : Blanked a b) (head : ∀ c ∈ a.head?, P c)
    (space : P ' ') : ∀ c ∈ b.head?, P c := by
  cases h with
  | nil => exact head
  | keep c rest => exact head
  | blank inLine rest =>
      rw [spaces_utf8Size]
      simpa using space

theorem Lexeme.Ends.blanked {l : Lexeme} (ends : l.Ends a) (h : Blanked a b) : l.Ends b := by
  refine ends.of_seen ?_ ?_
  · exact h.forall_head (P := fun c => c ∈ a.head? ∨ IsBlank c) (fun c member => .inl member)
      (.inr ⟨.space, rfl⟩)
  · intro d _ c tail split
    -- The point is no space, so it was there before, and what follows it is a space or was there.
    cases h with
    | nil => cases split
    | @keep point a b rest =>
        cases split
        refine rest.forall_head (P := fun d => (∃ more, '.' :: a = '.' :: d :: more) ∨ IsBlank d)
          ?_ (.inr ⟨.space, rfl⟩) c rfl
        intro d first
        obtain ⟨more, rfl⟩ := List.head?_eq_some_iff.mp first
        exact .inl ⟨more, rfl⟩
    | blank inLine rest =>
        rw [spaces_utf8Size] at split
        cases split

/-- A part that may end in front of a text may end in front of the text with spaces in it. -/
theorem Part.Ends.blanked {p : Part} (ends : p.Ends a) (h : Blanked a b) : p.Ends b := by
  cases p with
  | lexeme l => exact Lexeme.Ends.blanked ends h
  | trivia t =>
      cases t with
      | blank b => trivial
      | comment body =>
          cases h with
          | nil => exact ends
          | keep c rest => exact ends
          | blank inLine rest => exact absurd (ends _ rfl) inLine
  | stray c => exact ends
  | unclosed body =>
      obtain ⟨absent, rfl⟩ := ends
      cases h
      exact ⟨absent, rfl⟩

end Texts

/-! ## Parts -/

section Parts

variable (hidden : Part → Prop) [DecidablePred hidden]

/-- A part, or the spaces in its place if it is to be hidden. -/
def Part.blanked (p : Part) : List Part :=
  if hidden p then Layout.blankParts (List.replicate (byteLength p.text) .space) else [p]

/-- Parts with spaces in the place of those that are to be hidden. -/
def Part.blankedAll (parts : List Part) : List Part := parts.flatMap (Part.blanked hidden)

namespace Part

theorem texts_blanked (p : Part) :
    texts (p.blanked hidden) = if hidden p then spaces (byteLength p.text) else p.text := by
  unfold blanked
  split
  · rw [Layout.texts_blankParts, blanks, List.map_replicate]
    rfl
  · exact List.append_nil _

theorem blankedAll_cons (p : Part) (parts : List Part) :
    blankedAll hidden (p :: parts) = p.blanked hidden ++ blankedAll hidden parts :=
  List.flatMap_cons

variable {hidden} {p : Part} {parts : List Part}

/-- Spaces lead as far as a part on one line. -/
theorem after_blanked (inLine : hidden p → '\n' ∉ p.text) (start : Position) :
    start.after (texts (p.blanked hidden)) = start.after p.text := by
  rw [texts_blanked]
  split
  · next hides =>
      have breaks : lineBreaks (spaces (byteLength p.text)) = lineBreaks p.text := by
        rw [lineBreaks, lineBreaks, List.count_eq_zero.mpr (inLine hides)]
        exact List.count_eq_zero.mpr (by simp [spaces])
      rw [Position.after, Position.after, byteLength_spaces, breaks]
  · rfl

/-- Spaces yield nothing. -/
theorem filterMap_located_blanked {α : Type} {yields : Position → Part → Option α}
    (nothing : ∀ place t, yields place (.trivia t) = none) (start : Position) :
    ((located start (p.blanked hidden)).filterMap fun (place, p) => yields place p) =
      (located start [p]).filterMap fun (place, p) => if hidden p then none else yields place p := by
  by_cases hides : hidden p
  · have right : ([(start, p)].filterMap fun (place, p) =>
        if hidden p then none else yields place p) = [] := by simp [hides]
    rw [blanked, if_pos hides, located, located, right, List.filterMap_eq_nil_iff]
    rintro ⟨place, q⟩ member
    obtain ⟨before, after, split, -⟩ := mem_located_iff.mp member
    have among : q ∈ before ++ q :: after := by simp
    rw [← split] at among
    obtain ⟨b, -, rfl⟩ := List.mem_map.mp among
    exact nothing place _
  · rw [blanked, if_neg hides]
    simp [located, List.filterMap_cons, hides]

variable (inLine : ∀ p ∈ parts, hidden p → '\n' ∉ p.text)

include inLine

theorem texts_blankedAll : Blanked (texts parts) (texts (blankedAll hidden parts)) := by
  induction parts with
  | nil => exact .nil
  | cons p parts ih =>
      obtain ⟨first, others⟩ := List.forall_mem_cons.mp inLine
      rw [blankedAll_cons, texts_append, texts_cons, texts_blanked]
      split
      · next hides => exact (ih others).blank_append (first hides)
      · exact (ih others).keep_append p.text

theorem after_blankedAll (start : Position) :
    start.after (texts (blankedAll hidden parts)) = start.after (texts parts) := by
  induction parts generalizing start with
  | nil => rfl
  | cons p parts ih =>
      obtain ⟨first, others⟩ := List.forall_mem_cons.mp inLine
      rw [blankedAll_cons, texts_append, texts_cons, Position.after_append, Position.after_append,
        after_blanked first, ih others]

theorem filterMap_located_blankedAll {α : Type} {yields : Position → Part → Option α}
    (nothing : ∀ place t, yields place (.trivia t) = none) (start : Position) :
    ((located start (blankedAll hidden parts)).filterMap fun (place, p) => yields place p) =
      (located start parts).filterMap fun (place, p) => if hidden p then none else yields place p := by
  induction parts generalizing start with
  | nil => rfl
  | cons p parts ih =>
      obtain ⟨first, others⟩ := List.forall_mem_cons.mp inLine
      rw [blankedAll_cons, located_append, List.filterMap_append, filterMap_located_blanked nothing,
        after_blanked first, ih others, ← List.filterMap_append]
      rfl

theorem outcome_blankedAll (noToken : ∀ place p, hidden p → p.token? place = none) :
    (outcome (blankedAll hidden parts)).tokens = (outcome parts).tokens ∧
      (outcome (blankedAll hidden parts)).faults =
        (located .start parts).filterMap fun (place, p) =>
          if hidden p then none else p.fault? place := by
  constructor
  · rw [outcome, outcome, filterMap_located_blankedAll inLine (fun _ _ => rfl),
      after_blankedAll inLine]
    refine congrArg (· ++ _) (congrArg (List.filterMap · _) (funext ?_))
    rintro ⟨place, p⟩
    by_cases hides : hidden p
    · exact (if_pos hides).trans (noToken place p hides).symm
    · exact if_neg hides
  · exact filterMap_located_blankedAll inLine (fun _ _ => rfl) .start

end Part

variable {hidden}

theorem Divided.blankedAll {parts : List Part} (divided : Divided parts)
    (inLine : ∀ p ∈ parts, hidden p → '\n' ∉ p.text) : Divided (Part.blankedAll hidden parts) := by
  induction parts with
  | nil => trivial
  | cons p parts ih =>
      obtain ⟨ends, divided⟩ := divided
      obtain ⟨-, others⟩ := List.forall_mem_cons.mp inLine
      rw [Part.blankedAll_cons, Part.blanked]
      split
      · exact (Layout.divided_blankParts_append _ _).mpr (ih divided others)
      · exact ⟨ends.blanked (Part.texts_blankedAll others), ih divided others⟩

/-- With spaces in the place of parts that are no tokens a source has the same tokens, and the faults
of the other parts. -/
theorem Divided.scan_blankedAll {parts : List Part} (divided : Divided parts)
    (inLine : ∀ p ∈ parts, hidden p → '\n' ∉ p.text)
    (noToken : ∀ place p, hidden p → p.token? place = none) {source : String}
    (split : Part.texts parts = source.toList) :
    let blanked := scan (String.ofList (Part.texts (Part.blankedAll hidden parts)))
    blanked.tokens = (scan source).tokens ∧
      blanked.faults = (Part.located .start parts).filterMap fun (place, p) =>
        if hidden p then none else p.fault? place := by
  rw [scan_eq_outcome (divided.blankedAll inLine) String.toList_ofList.symm,
    scan_eq_outcome divided split]
  exact Part.outcome_blankedAll inLine noToken

end Parts

end LoxLexer
