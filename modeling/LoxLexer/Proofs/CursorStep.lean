-- SUMMARY: Inside of a turn every step of a cursor is possible, and reads one character more or ends the turn behind a part.
import LoxLexer.Proofs.Cursor
import LoxLexer.Proofs.Place

/-!
# Steps of cursors

Each turn of the loop reads one part. Inside of the turn the cursor has read a beginning of it, and
`Stage.Reads` says which ones are possible at each stage. A step that is taken there never fails: it
reads one character more, or ends the turn with what the part yields.
-/

namespace LoxLexer

/-! ## First characters -/

section Heads

variable {p : Char → Bool} {rest : List Char}

theorem exists_cons_of_any (inside : rest.head?.any p = true) :
    ∃ c tail, rest = c :: tail ∧ p c = true := by
  cases rest with
  | nil => cases inside
  | cons c tail => exact ⟨c, tail, rfl, inside⟩

theorem boundary_of_any (outside : rest.head?.any p = false) : ∀ c ∈ rest.head?, p c = false := by
  cases rest with
  | nil => simp
  | cons c tail => simpa using outside

/-- Whether a point comes next, with a character of a class behind it. -/
theorem point_iff : rest.head? = some '.' ∧ rest[1]?.any p = true ↔
    ∃ f tail, rest = '.' :: f :: tail ∧ p f = true := by
  match rest with
  | [] | [_] | _ :: _ :: _ => simp

theorem ne_newline_of_wordPart {c : Char} (part : isWordPart c = true) : c ≠ '\n' := by
  rintro rfl
  exact absurd part (by decide)

theorem ne_newline_of_digit {c : Char} (digit : isDigit c = true) : c ≠ '\n' := by
  rintro rfl
  exact absurd digit (by decide)

end Heads

/-! ## Longer runs -/

/-- A run of digits with one more behind it. -/
def Digits.push (d : Digits) {c : Char} (digit : IsDigit c) : Digits where
  text := d.text ++ [c]
  nonempty := by simp
  digits := List.forall_mem_append.mpr ⟨d.digits, by simpa using digit⟩

/-- A run of one digit. -/
def Digits.single {c : Char} (digit : IsDigit c) : Digits where
  text := [c]
  nonempty := by simp
  digits := by simpa using digit

def Word.push (w : Word) {c : Char} (part : IsLetter c ∨ IsDigit c) : Word where
  first := w.first
  others := w.others ++ [c]
  letter := w.letter
  parts := List.forall_mem_append.mpr ⟨w.parts, by simpa using part⟩

def Without.nil (c : Char) : Without c := ⟨[], by simp⟩

def Without.push {c : Char} (w : Without c) {d : Char} (other : d ≠ c) : Without c where
  text := w.text ++ [d]
  absent := by simpa [w.absent] using other.symm

/-! ## What has been read -/

/-- What can have been read of a lexeme at a stage, and what can follow it. -/
inductive Stage.Reads : Stage → List Char → List Char → Prop
  | begun {c : Char} {rest : List Char} : Reads .begun [] (c :: rest)
  | operator {c : Char} {short long : Mark} {rest : List Char} :
    Mark.operator? c = some (short, long) → Reads (.operator short long) [c] rest
  | slash {rest : List Char} : Reads .slash ['/'] rest
  | comment (body : Without '\n') {rest : List Char} :
    Reads .comment (Trivia.comment body).text rest
  | string (body : Without '"') {rest : List Char} : Reads .string ('"' :: body.text) rest
  | closed (body : Without '"') {rest : List Char} : Reads .closed (Lexeme.quoted body).text rest
  | whole (d : Digits) {rest : List Char} : Reads .whole d.text rest
  | point (d : Digits) {c : Char} {rest : List Char} : IsDigit c →
    Reads .fraction (d.text ++ ['.']) (c :: rest)
  | fraction (d f : Digits) {rest : List Char} : Reads .fraction (Lexeme.decimal d f).text rest
  | word (w : Word) {rest : List Char} : Reads .word (Lexeme.word w).text rest

theorem Stage.Reads.ne_between {stage : Stage} {read rest : List Char}
    (reads : stage.Reads read rest) : stage ≠ .between := by
  cases reads <;> exact nofun

/-- The value of a number is that of the numeral it is written as. -/
theorem Lexeme.literal_of_number {l : Lexeme} (number : l.kind = .number) :
    l.literal = some (.number (Numeral.ofText l.text).toBinary64) := by
  have meaning := (Part.lexeme l).meaning_piece
  cases l with
  | whole | decimal => exact (Meaning.token.inj meaning).2.symm
  | word w => exact absurd number (Kind.ofWord_ne_number _)
  | mark | quoted => cases number

namespace Cursor

/-- The cursor of a turn that has read a text. -/
def reading (a : Cursor) (stage : Stage) (read : List Char) : Cursor :=
  { a with
    start := a.current
    current := a.current + byteLength read
    line := a.line + lineBreaks read
    stage }

/-- The cursor at the end of a turn that has read a part. -/
def behind (a : Cursor) (p : Part) : Cursor :=
  let place : Position := ⟨a.current, a.line⟩
  { a.reading .between p.text with
    tokens := a.tokens ++ (p.token? place).toList
    faults := a.faults ++ (p.fault? place).toList }

/-- A text is what is left of a source in front of a cursor. -/
def Faces (source : String) (a : Cursor) (text : List Char) : Prop :=
  ∃ before, source.toList = before ++ text ∧ byteLength before = a.current

section Reading

variable {source : String} {a : Cursor} (stage : Stage) {read rest : List Char} {c : Char}

/-! ### Looking at the source -/

theorem Faces.utf8ByteSize {text : List Char} (faces : a.Faces source text) :
    source.utf8ByteSize = a.current + byteLength text := by
  obtain ⟨before, split, here⟩ := faces
  rw [← byteLength_toList, split, byteLength_append, here]

theorem atEnd_reading_iff (faces : a.Faces source (read ++ rest)) :
    (a.reading stage read).AtEnd source ↔ rest = [] := by
  rw [AtEnd, faces.utf8ByteSize, byteLength_append, ← byteLength_eq_zero_iff]
  simp only [reading]
  omega

theorem charsFrom?_reading (faces : a.Faces source (read ++ rest)) :
    charsFrom? source (a.reading stage read).current = some rest := by
  obtain ⟨before, split, here⟩ := faces
  rw [← List.append_assoc] at split
  have chars := charsFrom?_of_split split
  rwa [byteLength_append, here] at chars

theorem peek?_reading (faces : a.Faces source (read ++ rest)) :
    (a.reading stage read).peek? source = some rest.head? := by
  rw [peek?, charsFrom?_reading _ faces]
  rfl

theorem peekNext?_reading (faces : a.Faces source (read ++ rest)) :
    (a.reading stage read).peekNext? source = some rest[1]? := by
  rw [peekNext?, charsFrom?_reading _ faces]
  rfl

theorem lexeme?_reading (faces : a.Faces source (read ++ rest)) :
    (a.reading stage read).lexeme? source = some (String.ofList read) := by
  obtain ⟨before, split, here⟩ := faces
  rw [← List.append_assoc] at split
  have text := textBetween?_of_split split
  rwa [here] at text

/-- A string with both quotes read has its text between them. -/
theorem body?_reading {body : Without '"'}
    (faces : a.Faces source ((Lexeme.quoted body).text ++ rest)) :
    let k := a.reading stage (Lexeme.quoted body).text
    textBetween? source (k.start + 1) (k.current - 1) = some (String.ofList body.text) := by
  obtain ⟨before, split, here⟩ := faces
  have inner : source.toList = (before ++ ['"']) ++ body.text ++ ('"' :: rest) := by
    simp [split, Lexeme.text]
  have value := textBetween?_of_split inner
  have quote : '"'.utf8Size = 1 := rfl
  have first : byteLength (before ++ ['"']) = a.current + 1 := by
    simp [here, quote]
  have last : byteLength (before ++ ['"']) + byteLength body.text =
      a.current + byteLength (Lexeme.quoted body).text - 1 := by
    rw [first]
    simp only [Lexeme.text, List.cons_append, byteLength_cons, byteLength_append, byteLength_nil,
      quote]
    omega
  rwa [last, first] at value

/-! ### Moving on -/

@[simp] theorem stage_reading : (a.reading stage read).stage = stage := rfl

@[simp] theorem enter_reading (next : Stage) :
    (a.reading stage read).enter next = a.reading next read := rfl

theorem pass_reading (unbroken : c ≠ '\n') :
    (a.reading stage read).pass c = a.reading stage (read ++ [c]) := by
  have breaks : lineBreaks [c] = 0 := List.count_eq_zero.mpr (by simpa using unbroken.symm)
  simp [reading, pass, breaks, Nat.add_assoc]

theorem pass_reading_newline :
    ((a.reading stage read).pass '\n').countLine = a.reading stage (read ++ ['\n']) := by
  simp [reading, pass, countLine, lineBreaks, Nat.add_assoc]

theorem addToken_reading {l : Lexeme} (faces : a.Faces source (read ++ rest))
    (text : l.text = read) :
    (a.reading stage read).addToken source l.kind l.literal = some (a.behind (.lexeme l)) := by
  subst text
  rw [addToken, lexeme?_reading _ faces]
  simp [behind, reading, span, Part.token?, Part.fault?, Part.text, Lexeme.spelling,
    Position.after, Position.span]

theorem enter_reading_trivia {t : Trivia} :
    (a.reading stage t.text).enter .between = a.behind (.trivia t) := by
  simp [behind, reading, enter, Part.token?, Part.fault?, Part.text]

theorem addFault_reading {p : Part} {cause : Cause} (meaning : p.meaning = .fault cause) :
    (a.reading stage p.text).addFault cause = a.behind p := by
  cases p with
  | lexeme | trivia => cases meaning
  | stray | unclosed =>
      cases meaning
      simp [behind, reading, addFault, span, Part.token?, Part.fault?, Part.text, Position.after,
        Position.span]

theorem addNumber_reading {l : Lexeme} (faces : a.Faces source (read ++ rest))
    (text : l.text = read) (number : l.kind = .number) :
    (a.reading stage read).addNumber source = some (a.behind (.lexeme l)) := by
  obtain ⟨q, x, denotes, -⟩ := l.exists_isRounded number
  rw [text] at denotes
  have token := addToken_reading stage faces text
  rw [number, l.literal_of_number number, text] at token
  simp [addNumber, lexeme?_reading _ faces, Numeral.read?_of_denotes denotes, token]

/-! ### Steps -/

variable {stage}

/-- What a step inside of a turn can do if it has read a text and has another one in front. -/
inductive Progress (a : Cursor) (read rest : List Char) : Cursor → Prop
  | more {c : Char} {tail : List Char} {stage : Stage} : rest = c :: tail →
    stage.Reads (read ++ [c]) tail → Progress a read rest (a.reading stage (read ++ [c]))
  | done {p : Part} {after : List Char} : p.text ++ after = read ++ rest → p.Ends after →
    Progress a read rest (a.behind p)

/-- A step that is possible, and what it does. -/
def Steps (source : String) (a : Cursor) (stage : Stage) (read rest : List Char) : Prop :=
  ∃ k, (a.reading stage read).step source = some k ∧ Progress a read rest k

theorem steps_comment {body : Without '\n'}
    (faces : a.Faces source ((Trivia.comment body).text ++ rest)) :
    Steps source a .comment (Trivia.comment body).text rest := by
  cases more : rest.head?.any (· != '\n') with
  | true =>
      obtain ⟨c, tail, rfl, other⟩ := exists_cons_of_any more
      have unbroken : c ≠ '\n' := by simpa using other
      refine ⟨_, ?_, .more rfl (.comment (body.push unbroken))⟩
      simp [step, peek?_reading _ faces, advance, unbroken, pass_reading _ unbroken]
  | false =>
      have ends : ∀ c ∈ rest.head?, c = '\n' := by simpa using boundary_of_any more
      refine ⟨_, ?_, .done (p := .trivia (.comment body)) rfl ends⟩
      have trivia := enter_reading_trivia .comment (a := a) (t := .comment body)
      simpa [step, peek?_reading _ faces, more] using trivia

theorem steps_string {body : Without '"'}
    (faces : a.Faces source ('"' :: body.text ++ rest)) :
    Steps source a .string ('"' :: body.text) rest := by
  have peek := peek?_reading .string faces
  have atEnd := atEnd_reading_iff .string faces
  cases rest with
  | nil =>
      refine ⟨_, ?_, .done (p := .unclosed body.text) rfl ⟨body.absent, rfl⟩⟩
      have fault := addFault_reading .string (a := a) (p := .unclosed body.text) rfl
      simpa [step, peek, atEnd, Part.text] using fault
  | cons c tail =>
      by_cases closes : c = '"'
      · subst closes
        refine ⟨_, ?_, .more rfl (.closed body)⟩
        simp [step, peek, atEnd, advance, pass_reading _ (c := '"') (by decide)]
      · refine ⟨_, ?_, .more rfl (.string (body.push closes))⟩
        -- A line break is one more character of the string, and counts a line.
        by_cases breaks : c = '\n'
        · subst breaks
          simp [step, peek, advance, pass_reading_newline]
        · simp [step, peek, advance, closes, breaks, pass_reading _ breaks]

theorem steps_slash (faces : a.Faces source (['/'] ++ rest)) :
    Steps source a .slash ['/'] rest := by
  by_cases doubled : rest.head? = some '/'
  · obtain ⟨tail, rfl⟩ := List.head?_eq_some_iff.mp doubled
    refine ⟨_, ?_, .more rfl (.comment (.nil _))⟩
    simp [step, peek?_reading _ faces, advance, pass_reading _ (c := '/') (by decide)]
  · refine ⟨_, ?_, .done (p := .lexeme (.mark .slash)) rfl doubled⟩
    have token := addToken_reading .slash (l := .mark .slash) faces rfl
    simpa [step, peek?_reading _ faces, doubled, Lexeme.kind, Lexeme.literal] using token

theorem steps_operator {short long : Mark} (leads : Mark.operator? c = some (short, long))
    (faces : a.Faces source ([c] ++ rest)) :
    Steps source a (.operator short long) [c] rest := by
  obtain ⟨short_eq, long_eq⟩ := Mark.spelling_of_operator? leads
  by_cases doubled : rest.head? = some '='
  · obtain ⟨tail, rfl⟩ := List.head?_eq_some_iff.mp doubled
    have whole : (Part.lexeme (.mark long)).text ++ tail = [c] ++ '=' :: tail := by
      simp [Part.text, Lexeme.text, long_eq]
    refine ⟨_, ?_, .done (p := .lexeme (.mark long)) whole (Mark.ends_long leads)⟩
    have token := addToken_reading (.operator short long) (l := .mark long)
      (show a.Faces source ([c, '='] ++ tail) from faces) long_eq
    simpa [step, peek?_reading _ faces, munch, advance, pass_reading _ (c := '=') (by decide),
      Lexeme.kind, Lexeme.literal] using token
  · have whole : (Part.lexeme (.mark short)).text ++ rest = [c] ++ rest := by
      simp [Part.text, Lexeme.text, short_eq]
    refine ⟨_, ?_, .done (p := .lexeme (.mark short)) whole (Mark.ends_short leads doubled)⟩
    have token := addToken_reading (.operator short long) (l := .mark short) faces short_eq
    have other : short ≠ long := by
      rintro rfl
      simp [short_eq] at long_eq
    simpa [step, peek?_reading _ faces, munch, doubled, other, Lexeme.kind, Lexeme.literal]
      using token

theorem steps_closed {body : Without '"'}
    (faces : a.Faces source ((Lexeme.quoted body).text ++ rest)) :
    Steps source a .closed (Lexeme.quoted body).text rest := by
  refine ⟨_, ?_, .done (p := .lexeme (.quoted body)) rfl trivial⟩
  have token := addToken_reading .closed faces rfl
  have body := body?_reading .closed faces
  simpa [step, body, Lexeme.kind, Lexeme.literal] using token

theorem steps_whole {d : Digits} (faces : a.Faces source (d.text ++ rest)) :
    Steps source a .whole d.text rest := by
  have peek := peek?_reading .whole faces
  have peekNext := peekNext?_reading .whole faces
  cases more : rest.head?.any isDigit with
  | true =>
      obtain ⟨c, tail, rfl, inside⟩ := exists_cons_of_any more
      refine ⟨_, ?_, .more rfl (.whole (d.push ((isDigit_iff c).mp inside)))⟩
      have unbroken := ne_newline_of_digit inside
      simp [step, peek, peekNext, inside, advance, pass_reading _ unbroken]
  | false =>
      by_cases point : rest.head? = some '.' ∧ rest[1]?.any isDigit = true
      · obtain ⟨f, tail, rfl, inside⟩ := point_iff.mp point
        refine ⟨_, ?_, .more rfl (.point d ((isDigit_iff f).mp inside))⟩
        have outside : isDigit '.' = false := by decide
        simp [step, peek, peekNext, outside, inside, advance, pass_reading _ (c := '.') (by decide)]
      · have ends : (Lexeme.whole d).Ends rest := by
          refine ⟨boundary_of_any more, fun f tail split => Bool.eq_false_iff.mpr fun inside => ?_⟩
          exact point (point_iff.mpr ⟨f, tail, split, inside⟩)
        refine ⟨_, ?_, .done (p := .lexeme (.whole d)) rfl ends⟩
        have number := addNumber_reading .whole (l := .whole d) faces rfl rfl
        simpa [step, peek, peekNext, more, point] using number

theorem steps_fraction {d f : Digits}
    (faces : a.Faces source ((Lexeme.decimal d f).text ++ rest)) :
    Steps source a .fraction (Lexeme.decimal d f).text rest := by
  cases more : rest.head?.any isDigit with
  | true =>
      obtain ⟨c, tail, rfl, inside⟩ := exists_cons_of_any more
      have longer : (Lexeme.decimal d f).text ++ [c] =
          (Lexeme.decimal d (f.push ((isDigit_iff c).mp inside))).text := by
        simp [Lexeme.text, Digits.push]
      refine ⟨_, ?_, .more rfl (longer ▸ Stage.Reads.fraction d _)⟩
      have unbroken := ne_newline_of_digit inside
      simp [step, peek?_reading _ faces, inside, advance, pass_reading _ unbroken]
  | false =>
      refine ⟨_, ?_, .done (p := .lexeme (.decimal d f)) rfl (boundary_of_any more)⟩
      have number := addNumber_reading .fraction faces rfl rfl
      simpa [step, peek?_reading _ faces, more] using number

theorem steps_point {d : Digits} (digit : IsDigit c)
    (faces : a.Faces source (d.text ++ ['.'] ++ c :: rest)) :
    Steps source a .fraction (d.text ++ ['.']) (c :: rest) := by
  have inside := (isDigit_iff c).mpr digit
  have longer : d.text ++ ['.'] ++ [c] = (Lexeme.decimal d (.single digit)).text := by
    simp [Lexeme.text, Digits.single]
  refine ⟨_, ?_, .more rfl (longer ▸ Stage.Reads.fraction d _)⟩
  have unbroken := ne_newline_of_digit inside
  simp [step, peek?_reading _ faces, inside, advance, pass_reading _ unbroken]

theorem steps_word {w : Word} (faces : a.Faces source ((Lexeme.word w).text ++ rest)) :
    Steps source a .word (Lexeme.word w).text rest := by
  cases more : rest.head?.any isWordPart with
  | true =>
      obtain ⟨c, tail, rfl, inside⟩ := exists_cons_of_any more
      refine ⟨_, ?_, .more rfl (.word (w.push ((isWordPart_iff c).mp inside)))⟩
      have unbroken := ne_newline_of_wordPart inside
      simp [step, peek?_reading _ faces, inside, advance, pass_reading _ unbroken]
  | false =>
      refine ⟨_, ?_, .done (p := .lexeme (.word w)) rfl (boundary_of_any more)⟩
      have kind : (Lexeme.word w).kind = Kind.ofWord (String.ofList (Lexeme.word w).text) := rfl
      have token := addToken_reading .word faces rfl
      rw [kind] at token
      simpa [step, peek?_reading _ faces, lexeme?_reading _ faces, more, Lexeme.literal] using token

theorem steps_begun (faces : a.Faces source ([] ++ c :: rest)) :
    Steps source a .begun [] (c :: rest) := by
  have led : (a.reading .begun []).step source = (a.reading .begun []).lead source c := by
    simp [step, peek?_reading _ faces]
  have fits := Lead.fits_of c
  rw [Steps, led]
  -- A line break is the one first character that counts a line.
  by_cases breaks : c = '\n'
  · subst breaks
    refine ⟨_, ?_, .done (p := .trivia (.blank .newline)) rfl trivial⟩
    rw [← enter_reading_trivia .begun]
    exact congrArg (fun k => some (k.enter .between)) (pass_reading_newline .begun)
  have passed : (a.reading .begun []).pass c = a.reading .begun [c] := pass_reading _ breaks
  cases leads : Lead.of c with
  | single m =>
      rw [leads] at fits
      have spelling := Mark.spelling_of_single? fits
      have whole : (Part.lexeme (.mark m)).text ++ rest = [] ++ c :: rest := by
        simp [Part.text, Lexeme.text, spelling]
      refine ⟨_, ?_, .done (p := .lexeme (.mark m)) whole (Mark.ends_of_single? fits)⟩
      have token := addToken_reading .begun (l := .mark m)
        (show a.Faces source ([c] ++ rest) from faces) spelling
      simpa [lead, leads, passed, Lexeme.kind, Lexeme.literal] using token
  | operator short long =>
      rw [leads] at fits
      exact ⟨_, by simp [lead, leads, passed], .more rfl (.operator fits)⟩
  | slash =>
      rw [leads] at fits
      subst fits
      exact ⟨_, by simp [lead, leads, passed], .more rfl .slash⟩
  | blank =>
      rw [leads] at fits
      have blank : ∃ b : Blank, b.char = c := by
        rcases fits with rfl | rfl | rfl
        · exact ⟨.space, rfl⟩
        · exact ⟨.tab, rfl⟩
        · exact ⟨.carriageReturn, rfl⟩
      obtain ⟨b, rfl⟩ := blank
      refine ⟨_, ?_, .done (p := .trivia (.blank b)) rfl trivial⟩
      have trivia := enter_reading_trivia .begun (a := a) (t := .blank b)
      simpa [lead, leads, passed, Trivia.text] using trivia
  | newline =>
      rw [leads] at fits
      exact absurd fits breaks
  | quote =>
      rw [leads] at fits
      subst fits
      exact ⟨_, by simp [lead, leads, passed], .more rfl (.string (.nil _))⟩
  | digit =>
      rw [leads] at fits
      exact ⟨_, by simp [lead, leads, passed], .more rfl (.whole (.single fits))⟩
  | wordStart =>
      rw [leads] at fits
      exact ⟨_, by simp [lead, leads, passed], .more rfl (.word ⟨c, [], fits, by simp⟩)⟩
  | stray =>
      refine ⟨_, ?_, .done (p := .stray c) rfl leads⟩
      have fault := addFault_reading .begun (a := a) (p := .stray c) rfl
      simpa [lead, leads, passed, Part.text] using fault

/-- Every step inside of a turn is possible. -/
theorem steps_of_reads (reads : stage.Reads read rest) (faces : a.Faces source (read ++ rest)) :
    Steps source a stage read rest := by
  cases reads with
  | begun => exact steps_begun faces
  | operator leads => exact steps_operator leads faces
  | slash => exact steps_slash faces
  | comment body => exact steps_comment faces
  | string body => exact steps_string faces
  | closed body => exact steps_closed faces
  | whole d => exact steps_whole faces
  | point d digit => exact steps_point digit faces
  | fraction d f => exact steps_fraction faces
  | word w => exact steps_word faces

end Reading

end Cursor

end LoxLexer
