-- SUMMARY: The places of parts in a text, what a part yields at its place, and a scan as what all parts of its source yield.
import LoxLexer.Scan
import LoxLexer.Proofs.Division

/-!
# Parts at their places

A part begins at the place that the parts before it lead to. What it yields there,
a token or a fault or nothing, needs nothing but the part and the place; a scan
yields this for all parts of its source, in order, and the end of input last.
-/

namespace LoxLexer

namespace Part

/-! ## Places -/

/-- The parts of a list with the place at which each begins. -/
def located : Position → List Part → List (Position × Part)
  | _, [] => []
  | place, p :: parts => (place, p) :: located (place.after p.text) parts

variable {start place : Position} {p : Part} {parts : List Part}

theorem located_append (start : Position) (a b : List Part) :
    located start (a ++ b) = located start a ++ located (start.after (texts a)) b := by
  induction a generalizing start with
  | nil => rfl
  | cons p a ih =>
      rw [List.cons_append, located, located, ih, texts_cons, Position.after_append]
      rfl

theorem mem_located_iff :
    (place, p) ∈ located start parts ↔
      ∃ before after, parts = before ++ p :: after ∧ place = start.after (texts before) := by
  induction parts generalizing start with
  | nil => simp [located]
  | cons q parts ih =>
      rw [located, List.mem_cons, ih]
      constructor
      · rintro (first | ⟨before, after, rfl, rfl⟩)
        · cases first
          exact ⟨[], parts, rfl, rfl⟩
        · exact ⟨q :: before, after, rfl, by rw [texts_cons, Position.after_append]⟩
      · rintro ⟨before, after, split, rfl⟩
        rcases List.cons_eq_append_iff.mp split with ⟨rfl, same⟩ | ⟨others, rfl, rest⟩
        · cases same
          exact .inl rfl
        · exact .inr ⟨others, after, rest, by rw [texts_cons, Position.after_append]⟩

/-- A later part begins behind an earlier one. -/
theorem pairwise_located :
    (located start parts).Pairwise fun a b => ∃ between, b.1 = (a.1.after a.2.text).after between := by
  induction parts generalizing start with
  | nil => exact .nil
  | cons p parts ih =>
      refine List.pairwise_cons.mpr ⟨?_, ih⟩
      rintro ⟨place, q⟩ member
      obtain ⟨before, after, -, rfl⟩ := mem_located_iff.mp member
      exact ⟨texts before, rfl⟩

/-! ## What a part yields -/

/-- The token of a part that begins at a place. -/
def token? (place : Position) : Part → Option Token
  | lexeme l =>
    some ⟨l.kind, l.spelling, l.literal, (place.after l.text).line, place.span l.text⟩
  | trivia _ | stray _ | unclosed _ => none

/-- The fault of a part that begins at a place. -/
def fault? (place : Position) : Part → Option Fault
  | stray c =>
    some { cause := .stray c, line := (place.after [c]).line, span := place.span [c] }
  | unclosed body =>
    let text := '"' :: body
    some { cause := .unclosed, line := (place.after text).line, span := place.span text }
  | lexeme _ | trivia _ => none

/-- What all parts of a text yield, and the end of input. -/
def outcome (parts : List Part) : Outcome where
  tokens := (located .start parts).filterMap (fun (place, p) => p.token? place) ++
    [Token.eof (Position.start.after (texts parts))]
  faults := (located .start parts).filterMap fun (place, p) => p.fault? place

end Part

/-! ## Tokens and faults, one by one -/

@[simp] theorem Position.offset_start_after (text : List Char) :
    (Position.start.after text).offset = byteLength text :=
  Nat.zero_add _

@[simp] theorem Position.line_start_after (text : List Char) :
    (Position.start.after text).line = 1 + lineBreaks text :=
  rfl

namespace Part

variable {parts : List Part}

section Yields

variable {α : Type} {yields : Position → Part → Option α}

theorem filterMap_located_cons (start : Position) (p : Part) (parts : List Part) :
    ((located start (p :: parts)).filterMap fun (place, p) => yields place p) =
      (yields start p).toList ++
        (located (start.after p.text) parts).filterMap fun (place, p) => yields place p := by
  cases found : yields start p <;> simp [located, found]

theorem mem_filterMap_located {x : α} :
    (x ∈ (located .start parts).filterMap fun (place, p) => yields place p) ↔
      ∃ before p after, parts = before ++ p :: after ∧
        yields (Position.start.after (texts before)) p = some x := by
  rw [List.mem_filterMap]
  constructor
  · rintro ⟨⟨place, p⟩, member, found⟩
    obtain ⟨before, after, split, rfl⟩ := mem_located_iff.mp member
    exact ⟨before, p, after, split, found⟩
  · rintro ⟨before, p, after, split, found⟩
    exact ⟨⟨_, p⟩, mem_located_iff.mpr ⟨before, after, split, rfl⟩, found⟩

/-- What parts yield is related if it is for any two places of which one leads to the
other. -/
theorem pairwise_filterMap_located {r : α → α → Prop} {start : Position}
    (ordered : ∀ place p between q x y, yields place p = some x →
      yields ((place.after p.text).after between) q = some y → r x y) :
    ((located start parts).filterMap fun (place, p) => yields place p).Pairwise r := by
  rw [List.pairwise_filterMap]
  refine pairwise_located.imp ?_
  rintro ⟨place, p⟩ ⟨later, q⟩ ⟨between, rfl⟩ x foundx y foundy
  exact ordered place p between q x y foundx foundy

end Yields

variable {place : Position} {p : Part} {t : Token} {f : Fault}

theorem eq_of_token? (found : p.token? place = some t) :
    t.span = place.span p.text ∧ t.line = (place.after p.text).line := by
  cases p <;> cases found
  exact ⟨rfl, rfl⟩

theorem eq_of_fault? (found : p.fault? place = some f) :
    f.span = place.span p.text ∧ f.line = (place.after p.text).line := by
  cases p <;> cases found <;> exact ⟨rfl, rfl⟩

theorem mem_tokens_iff :
    t ∈ (outcome parts).tokens ↔ (∃ before l after, parts = before ++ .lexeme l :: after ∧
      (lexeme l).token? (Position.start.after (texts before)) = some t) ∨
        t = Token.eof (Position.start.after (texts parts)) := by
  rw [outcome, List.mem_append, List.mem_singleton, mem_filterMap_located]
  refine or_congr_left ?_
  constructor
  · rintro ⟨before, p, after, split, yields⟩
    cases p with
    | lexeme l => exact ⟨before, l, after, split, yields⟩
    | _ => cases yields
  · rintro ⟨before, l, after, split, yields⟩
    exact ⟨before, .lexeme l, after, split, yields⟩

end Part

/-! ## Parts found alike -/

/-- Two lists of parts yield the same at the same places, whatever is looked for but trivia. -/
def Part.FoundAlike (a b : List Part) : Prop :=
  ∀ {α : Type} {yields : Position → Part → Option α}, (∀ place t, yields place (.trivia t) = none) →
    ∀ start, ((located start a).filterMap fun (place, p) => yields place p) =
      (located start b).filterMap fun (place, p) => yields place p

theorem Part.FoundAlike.cons {a b : List Part} (h : FoundAlike a b) (p : Part) :
    FoundAlike (p :: a) (p :: b) := by
  intro α yields nothing start
  rw [located, located, List.filterMap_cons, List.filterMap_cons, h nothing]

theorem Part.FoundAlike.append_left {a b : List Part} (h : FoundAlike a b) (parts : List Part) :
    FoundAlike (parts ++ a) (parts ++ b) := by
  induction parts with
  | nil => exact h
  | cons p parts ih => exact ih.cons p

/-! ## Contents -/

/-- What a token is apart from its place: kind, lexeme and literal. -/
def Token.content (t : Token) : Kind × String × Option Literal := (t.kind, t.lexeme, t.literal)

def Lexeme.content (l : Lexeme) : Kind × String × Option Literal := (l.kind, l.spelling, l.literal)

namespace Part

variable {start : Position} {parts : List Part}

def lexeme? : Part → Option Lexeme
  | lexeme l => some l
  | trivia _ | stray _ | unclosed _ => none

/-- The lexemes among parts. -/
def lexemes (parts : List Part) : List Lexeme := parts.filterMap lexeme?

theorem map_content_located :
    ((located start parts).filterMap fun (place, p) => p.token? place).map Token.content =
      (lexemes parts).map Lexeme.content := by
  induction parts generalizing start with
  | nil => rfl
  | cons p parts ih =>
      cases p <;>
        simp [located, token?, lexemes, lexeme?, Token.content, Lexeme.content] <;> exact ih

theorem map_content_tokens :
    (outcome parts).tokens.map Token.content =
      (lexemes parts).map Lexeme.content ++ [(.eof, "", none)] := by
  rw [outcome, List.map_append, map_content_located]
  rfl

theorem faults_eq_nil_iff : (outcome parts).faults = [] ↔ ∀ p ∈ parts, p.IsRegular := by
  suffices ∀ start, (located start parts).filterMap (fun (place, p) => p.fault? place) = [] ↔
      ∀ p ∈ parts, p.IsRegular from this _
  induction parts with
  | nil => simp [located]
  | cons p parts ih =>
      intro start
      rw [List.forall_mem_cons, ← ih (start.after p.text)]
      cases p <;> simp [located, fault?, IsRegular]

end Part

/-! ## Scans -/

namespace Scan

variable {σ : Type} (reporter : Reporter σ) (s : Scan σ)

theorem step_piece (p : Part) :
    (s.step reporter p.piece).position = s.position.after p.text ∧
      (s.step reporter p.piece).tokens.toList = s.tokens.toList ++ (p.token? s.position).toList ∧
      (s.step reporter p.piece).faults.toList = s.faults.toList ++ (p.fault? s.position).toList := by
  have meaning := p.meaning_piece
  cases p <;>
    simp [step, Piece.finding?, meaning, Part.meaning, record, Part.token?, Part.fault?, Part.text,
      Lexeme.spelling]

theorem foldl_step_piece (parts : List Part) :
    let t := (parts.map Part.piece).foldl (step reporter) s
    let items := Part.located s.position parts
    t.position = s.position.after (Part.texts parts) ∧
      t.tokens.toList = s.tokens.toList ++ items.filterMap (fun (place, p) => p.token? place) ∧
      t.faults.toList = s.faults.toList ++ items.filterMap (fun (place, p) => p.fault? place) := by
  induction parts generalizing s with
  | nil => simp [Part.located]
  | cons p parts ih =>
      obtain ⟨position, tokens, faults⟩ := s.step_piece reporter p
      have rest := ih (s.step reporter p.piece)
      simp only [position, tokens, faults] at rest
      obtain ⟨rest_position, rest_tokens, rest_faults⟩ := rest
      refine ⟨?_, ?_, ?_⟩
      · rw [List.map_cons, List.foldl_cons, rest_position, Part.texts_cons, Position.after_append]
      · rw [List.map_cons, List.foldl_cons, rest_tokens, List.append_assoc,
          Part.filterMap_located_cons]
      · rw [List.map_cons, List.foldl_cons, rest_faults, List.append_assoc,
          Part.filterMap_located_cons]

end Scan

/-- A scan yields what the parts of its source yield. -/
theorem scan_eq_outcome {source : String} {parts : List Part} (h : Divided parts)
    (split : Part.texts parts = source.toList) : scan source = Part.outcome parts := by
  obtain ⟨position, tokens, faults⟩ :=
    (Scan.begin ()).foldl_step_piece Reporter.silent parts
  simp only [scan, scanWith, Scan.run, ← split, h.divide_texts, Scan.outcome, Scan.finish,
    Part.outcome, Array.toList_push, position, tokens, faults]
  rfl

/-- Each token of a scan but the last has the contents of a lexeme. -/
theorem exists_lexeme_of_mem_tokens {source : String} {t : Token}
    (member : t ∈ (scan source).tokens) (kind : t.kind ≠ .eof) :
    ∃ l : Lexeme, t.content = l.content := by
  obtain ⟨parts, divided, split⟩ := exists_divided source.toList
  rw [scan_eq_outcome divided split, Part.mem_tokens_iff] at member
  rcases member with ⟨before, l, after, -, yields⟩ | rfl
  · cases yields
    exact ⟨l, rfl⟩
  · exact absurd rfl kind

end LoxLexer
