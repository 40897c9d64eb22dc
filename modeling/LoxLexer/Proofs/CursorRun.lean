-- SUMMARY: What the cursors of a scan keep to: offsets in order and between characters, possible slices, progress, and an end with what the scan yields.
import LoxLexer.Proofs.CursorStep
import LoxLexer.Proofs.Lines

/-!
# Runs of cursors

A turn in front of a text reads the part that the text begins with, one step after the other. So the
cursors at the top of the loop stand between the parts of the source, and there are no more turns
than parts.
-/

namespace LoxLexer

namespace Cursor

/-! ## Reached cursors -/

/-- The cursors that a scan comes to, at the top of the loop or inside of a turn. -/
inductive Reached (source : String) : Cursor → Prop
  | top {n : Nat} {a : Cursor} : AfterTurns source n a → Reached source a
  | inside {n : Nat} {a k : Cursor} : AfterTurns source n a → InTurn source a k → Reached source k

/-- The offsets of a cursor are in order and between characters. -/
structure IsPlaced (source : String) (k : Cursor) : Prop where
  ordered : k.start ≤ k.current
  bounded : k.current ≤ source.utf8ByteSize
  start : String.Pos.Raw.IsValid source ⟨k.start⟩
  current : String.Pos.Raw.IsValid source ⟨k.current⟩

/-- What a turn that began at a cursor has done so far. -/
structure Extends (a k : Cursor) : Prop where
  start : k.start = a.current
  tokens : a.tokens <+: k.tokens
  faults : a.faults <+: k.faults
  found : k.tokens.length + k.faults.length ≤ a.tokens.length + a.faults.length + 1
  /-- A whole turn reads something. -/
  progress : k.stage = .between → a.current < k.current

/-- A cursor is where a scan of pieces is, and has found the same. -/
structure Follows {σ : Type} (a : Cursor) (s : Scan σ) : Prop where
  position : s.position = ⟨a.current, a.line⟩
  tokens : s.tokens.toList = a.tokens
  faults : s.faults.toList = a.faults

end Cursor

open Cursor

/-- What the cursors of a scan keep to, and what the loop comes to. -/
structure CursorLaws (source : String) : Prop where
  placed : ∀ {k}, Reached source k → k.IsPlaced source
  /-- No step fails, neither for a slice nor for a number that is no numeral. -/
  steps : ∀ {k}, Reached source k → (k.step source).isSome
  slices : ∀ {k}, Reached source k →
    (charsFrom? source k.current).isSome ∧ (k.lexeme? source).isSome
  /-- Both quotes of a string are read before the text between them is taken. -/
  bodies : ∀ {k}, Reached source k → k.stage = .closed →
    k.start + 2 ≤ k.current ∧ (textBetween? source (k.start + 1) (k.current - 1)).isSome
  lines : ∀ {n a}, AfterTurns source n a → a.line = lineAt source a.current
  /-- A turn is the same as going over one piece. -/
  pieces : ∀ {n a}, AfterTurns source n a → ∀ {σ : Type} (reporter : Reporter σ) (state : σ),
    a.Follows (((Piece.divide source.toList).take n).foldl (Scan.step reporter) (.begin state))
  /-- A turn begins where the one before it ended. -/
  turns : ∀ {n a k}, AfterTurns source n a → InTurn source a k → a.Extends k
  turns_end : ∀ {n a}, AfterTurns source n a → ¬ a.AtEnd source →
    ∃ b, InTurn source a b ∧ b.stage = .between
  few_turns : ∀ {n a}, AfterTurns source n a → n ≤ source.length
  few_found : ∀ {n a}, AfterTurns source n a → a.tokens.length + a.faults.length ≤ n
  ends : ∃ n a, AfterTurns source n a ∧ a.AtEnd source
  outcome : ∀ {n a}, AfterTurns source n a → a.AtEnd source → a.outcome source = scan source
  small : (scan source).tokens.length + (scan source).faults.length ≤ source.length + 1

namespace Cursor

variable {source : String} {a k : Cursor} {stage : Stage} {text read rest : List Char}
  {p : Part} {parts done todo : List Part} {n : Nat}

/-! ## Cursors in front of a text -/

theorem Faces.atEnd_iff (faces : a.Faces source text) : a.AtEnd source ↔ text = [] :=
  atEnd_reading_iff .between (show a.Faces source ([] ++ text) from faces)

theorem Faces.isPlaced_reading (faces : a.Faces source (read ++ rest)) (stage : Stage) :
    (a.reading stage read).IsPlaced source := by
  have size := faces.utf8ByteSize
  rw [byteLength_append] at size
  obtain ⟨before, split, here⟩ := faces
  refine ⟨Nat.le_add_right _ _, ?_, ?_, ?_⟩
  · simp only [reading]
    omega
  · simpa [reading, here] using isValid_of_split split
  · rw [← List.append_assoc] at split
    simpa [reading, here] using isValid_of_split split

theorem Faces.isPlaced_behind (faces : a.Faces source (p.text ++ rest)) :
    (a.behind p).IsPlaced source := by
  have placed := faces.isPlaced_reading .between
  exact ⟨placed.ordered, placed.bounded, placed.start, placed.current⟩

/-! ## Turns -/

/-- What a turn in front of a text comes to. -/
inductive Turning (a : Cursor) (text : List Char) : Cursor → Prop
  | inside {stage : Stage} {read rest : List Char} : text = read ++ rest → stage.Reads read rest →
    Turning a text (a.reading stage read)
  | behind {p : Part} {rest : List Char} : text = p.text ++ rest → p.Ends rest →
    Turning a text (a.behind p)

theorem Progress.turning (progress : Progress a read rest k) (split : text = read ++ rest) :
    Turning a text k := by
  cases progress with
  | more next reads => exact .inside (by simp [split, next]) reads
  | done whole ends => exact .behind (split.trans whole.symm) ends

theorem step_between (stage : a.stage = .between) : a.step source = some (a.reading .begun []) := by
  simp [step, stage, reading]

theorem InTurn.turning (turn : InTurn source a k) (faces : a.Faces source text) :
    Turning a text k := by
  induction turn with
  | begin more stage first =>
      obtain ⟨c, tail, rfl⟩ := List.exists_cons_of_ne_nil (mt faces.atEnd_iff.mpr more)
      rw [step_between stage, Option.some.injEq] at first
      exact first ▸ .inside rfl .begun
  | go _ inside next ih =>
      cases ih with
      | inside split reads =>
          obtain ⟨l, taken, progress⟩ := steps_of_reads reads (split ▸ faces)
          rw [next, Option.some.injEq] at taken
          exact taken ▸ progress.turning split
      | behind => exact absurd rfl inside

/-- A turn ends, since there is only so much text to read. -/
theorem inTurn_behind_of_reading {stage : Stage} {read rest : List Char}
    (faces : a.Faces source text) (split : text = read ++ rest) (reads : stage.Reads read rest)
    (turn : InTurn source a (a.reading stage read)) :
    ∃ p after, text = p.text ++ after ∧ p.Ends after ∧ InTurn source a (a.behind p) := by
  obtain ⟨l, taken, progress⟩ := steps_of_reads reads (split ▸ faces)
  have next := turn.go reads.ne_between taken
  cases progress with
  | done whole ends => exact ⟨_, _, split.trans whole.symm, ends, next⟩
  | more same longer =>
      -- One character less is in front.
      subst same
      exact inTurn_behind_of_reading faces (by simp [split]) longer next
termination_by rest.length
decreasing_by simp [same]

theorem exists_inTurn_behind (faces : a.Faces source text) (more : text ≠ [])
    (stage : a.stage = .between) :
    ∃ p after, text = p.text ++ after ∧ p.Ends after ∧ InTurn source a (a.behind p) := by
  obtain ⟨c, tail, rfl⟩ := List.exists_cons_of_ne_nil more
  have first : InTurn source a (a.reading .begun []) :=
    .begin (mt faces.atEnd_iff.mp more) stage (step_between stage)
  exact inTurn_behind_of_reading faces rfl .begun first

/-! ## Runs -/

theorem stage_foldl_behind (parts : List Part) (stage : a.stage = .between) :
    (parts.foldl behind a).stage = .between := by
  induction parts generalizing a with
  | nil => exact stage
  | cons p parts ih => exact ih rfl

/-- The cursor that turns through parts lead to has what the parts yield. -/
theorem foldl_behind (parts : List Part) (a : Cursor) :
    let k := parts.foldl behind a
    let items := Part.located ⟨a.current, a.line⟩ parts
    k.current = a.current + byteLength (Part.texts parts) ∧
      k.line = a.line + lineBreaks (Part.texts parts) ∧
      k.tokens = a.tokens ++ items.filterMap (fun (place, p) => p.token? place) ∧
      k.faults = a.faults ++ items.filterMap (fun (place, p) => p.fault? place) := by
  induction parts generalizing a with
  | nil => simp [Part.located]
  | cons p parts ih =>
      obtain ⟨current, line, tokens, faults⟩ := ih (a.behind p)
      refine ⟨?_, ?_, ?_, ?_⟩
      · rw [List.foldl_cons, current, Part.texts_cons, byteLength_append, ← Nat.add_assoc]
        rfl
      · rw [List.foldl_cons, line, Part.texts_cons, lineBreaks_append, ← Nat.add_assoc]
        rfl
      · rw [List.foldl_cons, tokens, Part.filterMap_located_cons, ← List.append_assoc]
        rfl
      · rw [List.foldl_cons, faults, Part.filterMap_located_cons, ← List.append_assoc]
        rfl

/-- The cursor in front of the parts that are left. -/
theorem faces_foldl_behind (split : Part.texts (done ++ todo) = source.toList) :
    (done.foldl behind .init).Faces source (Part.texts todo) := by
  refine ⟨Part.texts done, ?_, ?_⟩
  · rw [← split, Part.texts_append]
  · rw [(foldl_behind done .init).1]
    exact (Nat.zero_add _).symm

theorem afterTurns_foldl_behind (divided : Divided (done ++ todo))
    (split : Part.texts (done ++ todo) = source.toList) :
    AfterTurns source done.length (done.foldl behind .init) := by
  induction done using List.reverseRecOn generalizing todo with
  | nil => exact .init
  | append_singleton done p ih =>
      rw [List.append_assoc] at divided split
      have before := ih divided split
      have faces := faces_foldl_behind split
      have stage := stage_foldl_behind (a := .init) done rfl
      have more : Part.texts ([p] ++ todo) ≠ [] := by simp [p.text_ne_nil]
      obtain ⟨q, after, same, ends, turn⟩ := exists_inTurn_behind faces more stage
      obtain ⟨others, eq, -⟩ := divided.right.eq_cons same ends
      cases eq
      rw [List.length_append, List.foldl_append]
      exact before.turn turn rfl

/-- The top of the loop is between two parts. -/
theorem AfterTurns.exists_parts (turns : AfterTurns source n a) :
    ∃ done todo, Divided (done ++ todo) ∧ Part.texts (done ++ todo) = source.toList ∧
      done.length = n ∧ done.foldl behind .init = a := by
  induction turns with
  | init =>
      obtain ⟨parts, divided, split⟩ := exists_divided source.toList
      exact ⟨[], parts, divided, split, rfl, rfl⟩
  | turn _ turn stage ih =>
      obtain ⟨done, todo, divided, split, rfl, rfl⟩ := ih
      cases turn.turning (faces_foldl_behind split) with
      | inside _ reads => exact absurd stage reads.ne_between
      | @behind p rest same ends =>
          -- Only one part that may end there begins the text, so this is the next one.
          obtain ⟨others, rfl, -⟩ := divided.right.eq_cons same ends
          rw [List.append_cons] at divided split
          exact ⟨done ++ [p], others, divided, split, by simp, by simp⟩

theorem AfterTurns.exists_faces (turns : AfterTurns source n a) :
    a.stage = .between ∧ ∃ text, a.Faces source text := by
  obtain ⟨done, todo, divided, split, rfl, rfl⟩ := turns.exists_parts
  exact ⟨stage_foldl_behind done rfl, _, faces_foldl_behind split⟩

/-! ## Places of reached cursors -/

theorem InTurn.isPlaced (turn : InTurn source a k) (faces : a.Faces source text) :
    k.IsPlaced source := by
  cases turn.turning faces with
  | inside split reads => exact (split ▸ faces).isPlaced_reading _
  | behind split ends => exact (split ▸ faces).isPlaced_behind

theorem AfterTurns.isPlaced (turns : AfterTurns source n a) : a.IsPlaced source := by
  cases turns with
  | init =>
      have valid := isValid_of_split (show source.toList = [] ++ source.toList from rfl)
      exact ⟨Nat.le_refl _, Nat.zero_le _, valid, valid⟩
  | turn before turn _ =>
      obtain ⟨-, text, faces⟩ := before.exists_faces
      exact turn.isPlaced faces

theorem Reached.isPlaced (reached : Reached source k) : k.IsPlaced source := by
  cases reached with
  | top turns => exact turns.isPlaced
  | inside turns turn =>
      obtain ⟨-, text, faces⟩ := turns.exists_faces
      exact turn.isPlaced faces

/-! ## Steps of reached cursors -/

theorem Reached.between_or_reading (reached : Reached source k) :
    k.stage = .between ∨ ∃ (a : Cursor) (stage : Stage) (read rest : List Char),
      a.Faces source (read ++ rest) ∧ stage.Reads read rest ∧ k = a.reading stage read := by
  cases reached with
  | top turns => exact .inl turns.exists_faces.1
  | inside turns turn =>
      obtain ⟨-, text, faces⟩ := turns.exists_faces
      cases turn.turning faces with
      | inside split reads => exact .inr ⟨_, _, _, _, split ▸ faces, reads, rfl⟩
      | behind => exact .inl rfl

theorem Reached.isSome_step (reached : Reached source k) : (k.step source).isSome := by
  rcases reached.between_or_reading with between | ⟨a, stage, read, rest, faces, reads, rfl⟩
  · rw [step_between between]
    rfl
  · obtain ⟨l, taken, -⟩ := steps_of_reads reads faces
    rw [taken]
    rfl

theorem Reached.body (reached : Reached source k) (closed : k.stage = .closed) :
    k.start + 2 ≤ k.current ∧ (textBetween? source (k.start + 1) (k.current - 1)).isSome := by
  rcases reached.between_or_reading with between | ⟨a, stage, read, rest, faces, reads, rfl⟩
  · rw [between] at closed
    cases closed
  · obtain rfl : stage = .closed := closed
    cases reads with
    | closed body =>
        refine ⟨?_, by rw [body?_reading _ faces]; rfl⟩
        have quotes : (Lexeme.quoted body).text.length = body.text.length + 2 := by
          simp [Lexeme.text]
        have := length_le_byteLength (Lexeme.quoted body).text
        simp only [reading]
        omega

/-! ## Progress -/

theorem Turning.extends (turning : Turning a text k) : a.Extends k := by
  cases turning with
  | inside split reads =>
      exact ⟨rfl, List.prefix_rfl, List.prefix_rfl, Nat.le_succ _,
        fun stage => absurd stage reads.ne_between⟩
  | @behind p rest split ends =>
      refine ⟨rfl, List.prefix_append _ _, List.prefix_append _ _, ?_, fun _ => ?_⟩
      · cases p <;> simp [Cursor.behind, Part.token?, Part.fault?] <;> omega
      · have := length_le_byteLength p.text
        have := List.length_pos_iff.mpr p.text_ne_nil
        simp only [Cursor.behind, reading]
        omega

theorem AfterTurns.extends (turns : AfterTurns source n a) (turn : InTurn source a k) :
    a.Extends k := by
  obtain ⟨-, text, faces⟩ := turns.exists_faces
  exact (turn.turning faces).extends

theorem AfterTurns.found_le (turns : AfterTurns source n a) :
    a.tokens.length + a.faults.length ≤ n := by
  induction turns with
  | init => exact Nat.le_refl _
  | turn before turn stage ih =>
      have := (before.extends turn).found
      omega

theorem AfterTurns.le_length (turns : AfterTurns source n a) : n ≤ source.length := by
  obtain ⟨done, todo, divided, split, rfl, rfl⟩ := turns.exists_parts
  have parts := Part.length_le_length_texts (done ++ todo)
  rw [split, String.length_toList, List.length_append] at parts
  omega

theorem AfterTurns.line_eq (turns : AfterTurns source n a) : a.line = lineAt source a.current := by
  obtain ⟨done, todo, divided, split, rfl, rfl⟩ := turns.exists_parts
  rw [Part.texts_append] at split
  obtain ⟨current, line, -⟩ := foldl_behind done .init
  have offset : Cursor.init.current + byteLength (Part.texts done) = byteLength (Part.texts done) :=
    Nat.zero_add _
  rw [line, current, offset, lineAt_of_split split.symm]
  rfl

theorem AfterTurns.follows (turns : AfterTurns source n a) {σ : Type} (reporter : Reporter σ)
    (state : σ) : a.Follows
      (((Piece.divide source.toList).take n).foldl (Scan.step reporter) (.begin state)) := by
  obtain ⟨done, todo, divided, split, rfl, rfl⟩ := turns.exists_parts
  have pieces : (Piece.divide source.toList).take done.length = done.map Part.piece := by
    rw [← split, divided.divide_texts, List.map_append]
    simp
  obtain ⟨current, line, tokens, faults⟩ := foldl_behind done .init
  obtain ⟨position, found, faulty⟩ := (Scan.begin state).foldl_step_piece reporter done
  rw [pieces]
  refine ⟨?_, found.trans tokens.symm, faulty.trans faults.symm⟩
  rw [position, current, line]
  rfl

/-! ## The end -/

theorem AfterTurns.exists_turn (turns : AfterTurns source n a) (more : ¬ a.AtEnd source) :
    ∃ b, InTurn source a b ∧ b.stage = .between := by
  obtain ⟨stage, text, faces⟩ := turns.exists_faces
  obtain ⟨p, after, -, -, turn⟩ := exists_inTurn_behind faces (mt faces.atEnd_iff.mpr more) stage
  exact ⟨_, turn, rfl⟩

theorem exists_end (source : String) : ∃ n a, AfterTurns source n a ∧ a.AtEnd source := by
  obtain ⟨parts, divided, split⟩ := exists_divided source.toList
  rw [← List.append_nil parts] at divided split
  exact ⟨_, _, afterTurns_foldl_behind divided split, (faces_foldl_behind split).atEnd_iff.mpr rfl⟩

theorem AfterTurns.outcome_eq (turns : AfterTurns source n a) (atEnd : a.AtEnd source) :
    a.outcome source = scan source := by
  obtain ⟨done, todo, divided, split, rfl, rfl⟩ := turns.exists_parts
  obtain rfl : todo = [] := by simpa using (faces_foldl_behind split).atEnd_iff.mp atEnd
  rw [List.append_nil] at divided split
  obtain ⟨-, line, tokens, faults⟩ := foldl_behind done .init
  rw [scan_eq_outcome divided split, outcome, line, tokens, faults, ← byteLength_toList, ← split]
  simp [Part.outcome, Position.after, Position.start, Cursor.init]

end Cursor

/-- The cursors of a scan stay in order, within the source and between its characters, no slice they
take of it is impossible, each turn reads something and finds one thing at most, and the loop ends
with what the scan yields. -/
theorem scan_cursorLaws (source : String) : CursorLaws source where
  placed := Reached.isPlaced
  steps := Reached.isSome_step
  slices := fun reached =>
    have placed := reached.isPlaced
    ⟨isSome_charsFrom?_iff.mpr placed.current,
      isSome_textBetween?_iff.mpr ⟨placed.start, placed.current, placed.ordered⟩⟩
  bodies := Reached.body
  lines := AfterTurns.line_eq
  pieces := AfterTurns.follows
  turns := AfterTurns.extends
  turns_end := AfterTurns.exists_turn
  few_turns := AfterTurns.le_length
  few_found := AfterTurns.found_le
  ends := exists_end source
  outcome := AfterTurns.outcome_eq
  small := by
    obtain ⟨n, a, turns, atEnd⟩ := exists_end source
    have := turns.found_le
    have := turns.le_length
    rw [← turns.outcome_eq atEnd]
    simp only [Cursor.outcome, List.length_append, List.length_singleton]
    omega

end LoxLexer
