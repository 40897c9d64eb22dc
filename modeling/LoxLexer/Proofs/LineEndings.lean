-- SUMMARY: A carriage return in front of every line break changes nothing about a scan but offsets, lengths and the texts of strings.
import LoxLexer.Proofs.Lookahead
import LoxLexer.Proofs.Lines

/-!
# Line endings

A carriage return is a blank. In front of a line break it stands between parts, or it belongs to the
string or to the comment that the line break is in or ends. So with a carriage return in front of
every line break a source has the same tokens and faults, on the same lines; spans grow by the line
breaks in them and move by those before them, and strings contain what was put in.
-/

namespace LoxLexer

/-! ## Texts -/

/-- A text with a carriage return in front of every line break. -/
def crlf (text : List Char) : List Char :=
  text.flatMap fun c => if c = '\n' then ['\r', '\n'] else [c]

section Texts

variable {text : List Char}

theorem crlf_append (a b : List Char) : crlf (a ++ b) = crlf a ++ crlf b :=
  List.flatMap_append

theorem crlf_newline (text : List Char) : crlf ('\n' :: text) = '\r' :: '\n' :: crlf text := rfl

theorem crlf_cons_of_ne {c : Char} (other : c ≠ '\n') (text : List Char) :
    crlf (c :: text) = c :: crlf text := by
  rw [crlf, List.flatMap_cons, if_neg other]
  rfl

theorem crlf_eq_self (absent : '\n' ∉ text) : crlf text = text := by
  induction text with
  | nil => rfl
  | cons c text ih =>
      rw [List.mem_cons, not_or] at absent
      rw [crlf_cons_of_ne (Ne.symm absent.1), ih absent.2]

theorem not_mem_crlf {c : Char} (absent : c ∉ text) (other : c ≠ '\r') : c ∉ crlf text := by
  intro member
  obtain ⟨d, among, written⟩ := List.mem_flatMap.mp member
  split at written
  · next newline =>
    simp only [List.mem_cons, List.not_mem_nil, or_false] at written
    rcases written with eq | rfl
    · exact other eq
    · exact absent (newline ▸ among)
  · exact absent (List.mem_singleton.mp written ▸ among)

theorem lineBreaks_cons_of_ne {c : Char} (other : c ≠ '\n') (text : List Char) :
    lineBreaks (c :: text) = lineBreaks text :=
  List.count_cons_of_ne other

theorem lineBreaks_newline (text : List Char) : lineBreaks ('\n' :: text) = lineBreaks text + 1 :=
  List.count_cons_self

/-- Each line break is a byte longer. -/
theorem byteLength_crlf (text : List Char) :
    byteLength (crlf text) = byteLength text + lineBreaks text := by
  induction text with
  | nil => rfl
  | cons c text ih =>
      by_cases newline : c = '\n'
      · subst newline
        have size : '\r'.utf8Size = 1 := rfl
        simp only [crlf_newline, byteLength_cons, ih, lineBreaks_newline, size]
        omega
      · simp only [crlf_cons_of_ne newline, byteLength_cons, ih, lineBreaks_cons_of_ne newline,
          Nat.add_assoc]

theorem lineBreaks_crlf (text : List Char) : lineBreaks (crlf text) = lineBreaks text := by
  induction text with
  | nil => rfl
  | cons c text ih =>
      by_cases newline : c = '\n'
      · subst newline
        rw [crlf_newline, lineBreaks_cons_of_ne (by decide), lineBreaks_newline, lineBreaks_newline, ih]
      · rw [crlf_cons_of_ne newline, lineBreaks_cons_of_ne newline, lineBreaks_cons_of_ne newline, ih]

/-- The first character is what it was, or a carriage return. -/
theorem mem_head_crlf {c : Char} (head : c ∈ (crlf text).head?) : c ∈ text.head? ∨ IsBlank c := by
  cases text with
  | nil => cases head
  | cons d text =>
      by_cases newline : d = '\n'
      · subst newline
        cases head
        exact .inr ⟨.carriageReturn, rfl⟩
      · rw [crlf_cons_of_ne newline] at head
        exact .inl head

end Texts

/-! ## What carriage returns do to a scan -/

/-- A span of a source, in the source with carriage returns: it is moved by the line breaks before it
and has those inside it twice. -/
def Span.withReturns (source : String) (s : Span) : Span where
  offset := s.offset + lineFeeds (source.toByteArray.extract 0 s.offset)
  length := s.length + lineFeeds (source.toByteArray.extract s.offset s.stop)

def Literal.withReturns : Literal → Literal
  | string text => string (String.ofList (crlf text.toList))
  | number x => number x

/-- A token of a source, in the source with carriage returns. -/
def Token.withReturns (source : String) (t : Token) : Token where
  kind := t.kind
  lexeme := String.ofList (crlf t.lexeme.toList)
  literal := t.literal.map Literal.withReturns
  line := t.line
  span := t.span.withReturns source

/-- A fault of a source, in the source with carriage returns. -/
def Fault.withReturns (source : String) (f : Fault) : Fault :=
  { f with span := f.span.withReturns source }

section Places

variable {source : String} {before text after : List Char}

theorem Position.span_crlf (split : source.toList = before ++ text ++ after) :
    (start.after (crlf before)).span (crlf text) =
      ((start.after before).span text).withReturns source := by
  have left := extract_of_split (show source.toList = [] ++ before ++ (text ++ after) by simp [split])
  rw [byteLength_nil, Nat.zero_add] at left
  simp only [span, Span.withReturns, Span.stop, offset_start_after, left, extract_of_split split,
    lineFeeds_ofList, byteLength_crlf]

theorem Position.line_crlf (before text : List Char) :
    ((start.after (crlf before)).after (crlf text)).line = ((start.after before).after text).line := by
  rw [← after_append, ← after_append, ← crlf_append, line_start_after, line_start_after,
    lineBreaks_crlf]

end Places

/-! ## Parts with carriage returns -/

/-- A text without quotes has none with carriage returns in it. -/
def Without.crlf (body : Without '"') : Without '"' where
  text := LoxLexer.crlf body.text
  absent := not_mem_crlf body.absent (by decide)

def Lexeme.withReturns : Lexeme → Lexeme
  | mark m => mark m
  | word w => word w
  | whole d => whole d
  | decimal d f => decimal d f
  | quoted body => quoted body.crlf

theorem Lexeme.text_withReturns (l : Lexeme) : l.withReturns.text = crlf l.text := by
  cases string : decide (l.kind = .string) with
  | true =>
      obtain ⟨body, rfl⟩ := Lexeme.kind_eq_string_iff.mp (of_decide_eq_true string)
      simp [withReturns, text, Without.crlf, crlf]
  | false =>
      have other : l.kind ≠ .string := of_decide_eq_false string
      rw [crlf_eq_self (Lexeme.newline_not_mem other)]
      cases l with
      | quoted body => exact absurd rfl other
      | _ => rfl

theorem Lexeme.kind_withReturns (l : Lexeme) : l.withReturns.kind = l.kind := by
  cases l <;> rfl

theorem Lexeme.literal_withReturns (l : Lexeme) :
    l.withReturns.literal = l.literal.map Literal.withReturns := by
  cases l with
  | quoted body => simp [withReturns, literal, Without.crlf, Literal.withReturns]
  | _ => rfl

theorem Lexeme.Ends.crlf {l : Lexeme} {rest : List Char} (ends : l.Ends rest) :
    l.withReturns.Ends (crlf rest) := by
  have same : l.Ends (LoxLexer.crlf rest) := by
    refine ends.of_seen (fun c head => mem_head_crlf head) ?_
    intro d _ c tail split
    have point : '.' ∈ (LoxLexer.crlf rest).head? := by rw [split]; rfl
    rcases mem_head_crlf point with head | blank
    · obtain ⟨more, rfl⟩ := List.head?_eq_some_iff.mp head
      rw [crlf_cons_of_ne (by decide)] at split
      have behind : c ∈ (LoxLexer.crlf more).head? := by rw [(List.cons.inj split).2]; rfl
      rcases mem_head_crlf behind with next | blank
      · obtain ⟨others, rfl⟩ := List.head?_eq_some_iff.mp next
        exact .inl ⟨others, rfl⟩
      · exact .inr blank
    · exact absurd rfl blank.ne.2.2
  cases l <;> exact same

namespace Part

/-- A part of a text, in the text with carriage returns. -/
def withReturns : Part → List Part
  | lexeme l => [lexeme l.withReturns]
  | trivia (.blank .newline) => [trivia (.blank .carriageReturn), trivia (.blank .newline)]
  | trivia t => [trivia t]
  | stray c => [stray c]
  | unclosed body => [unclosed (crlf body)]

variable {p : Part} {parts others : List Part} {rest : List Char}

theorem Ends.texts_withReturns (ends : p.Ends rest) : texts p.withReturns = crlf p.text := by
  cases p with
  | lexeme l => simpa [withReturns, text] using l.text_withReturns
  | trivia t =>
      cases t with
      | blank b => cases b <;> rfl
      | comment body =>
          have absent : '\n' ∉ (trivia (.comment body)).text := by
            simp [text, Trivia.text, body.absent]
          rw [crlf_eq_self absent]
          exact List.append_nil _
  | stray c =>
      rw [crlf_eq_self (newline_not_mem_stray ends)]
      rfl
  | unclosed body => simp [withReturns, text, crlf]

/-- What parts yield with carriage returns in them is known if it is for each of them. -/
theorem filterMap_located_withReturns {α : Type} {yields : Position → Part → Option α} {move : α → α}
    {source : List Char} (moved : ∀ left (p : Part) right, source = left ++ p.text ++ right →
      p.Ends right → ((located (Position.start.after (crlf left)) p.withReturns).filterMap
        fun (place, p) => yields place p) =
          ((yields (Position.start.after left) p).map move).toList)
    (divided : Divided parts) (before : List Char) (split : source = before ++ texts parts) :
    ((located (Position.start.after (crlf before)) (parts.flatMap withReturns)).filterMap
      fun (place, p) => yields place p) =
        ((located (Position.start.after before) parts).filterMap
          fun (place, p) => yields place p).map move := by
  induction parts generalizing before with
  | nil => rfl
  | cons p parts ih =>
      obtain ⟨ends, divided⟩ := divided
      rw [texts_cons, ← List.append_assoc] at split
      have later := ih divided _ split
      rw [crlf_append, Position.after_append, Position.after_append] at later
      rw [List.flatMap_cons, located_append, List.filterMap_append, moved _ _ _ split ends,
        ends.texts_withReturns, later, filterMap_located_cons, List.map_append, Option.toList_map]

/-- A part that is no comment, or is the last one, may end in front of a text with carriage returns. -/
theorem Ends.divided_withReturns (ends : p.Ends rest)
    (outside : ∀ body, p = .trivia (.comment body) → rest = []) (divided : Divided others)
    (split : texts others = crlf rest) : Divided (p.withReturns ++ others) := by
  cases p with
  | lexeme l =>
      refine ⟨?_, divided⟩
      change l.withReturns.Ends (texts others)
      rw [split]
      exact ends.crlf
  | trivia t =>
      cases t with
      | blank b =>
          cases b with
          | newline => exact ⟨trivial, trivial, divided⟩
          | _ => exact ⟨trivial, divided⟩
      | comment body =>
          obtain rfl := outside body rfl
          refine ⟨?_, divided⟩
          change ∀ c ∈ (texts others).head?, c = '\n'
          rw [split]
          exact nofun
  | stray c => exact ⟨ends, divided⟩
  | unclosed body =>
      obtain ⟨absent, rfl⟩ := ends
      exact ⟨⟨not_mem_crlf absent (by decide), split⟩, divided⟩

end Part

/-- A text with carriage returns divides into parts that are found as the parts of the text with
carriage returns are. -/
theorem Divided.exists_withReturns {parts : List Part} (divided : Divided parts) :
    ∃ others, Divided others ∧ Part.texts others = crlf (Part.texts parts) ∧
      Part.FoundAlike others (parts.flatMap Part.withReturns) := by
  induction parts with
  | nil => exact ⟨[], trivial, rfl, fun _ _ => rfl⟩
  | cons p parts ih =>
      obtain ⟨ends, divided⟩ := divided
      obtain ⟨others, later, split, alike⟩ := ih divided
      by_cases ended : Part.texts parts ≠ [] ∧ ∃ body, p = .trivia (.comment body)
      · -- The comment takes in the carriage return in front of the line break that ends it.
        obtain ⟨some, body, rfl⟩ := ended
        obtain ⟨c, tail, text⟩ := List.exists_cons_of_ne_nil some
        obtain rfl : c = '\n' := ends c (by rw [text]; rfl)
        rw [text, crlf_newline] at split
        obtain ⟨rest, rfl, later, split⟩ :=
          later.eq_cons (p := .trivia (.blank .carriageReturn)) split trivial
        have absent : '\n' ∉ body.text ++ ['\r'] := by simp [body.absent]
        have whole : crlf (Part.trivia (.comment body)).text = (Part.trivia (.comment body)).text := by
          simpa [Part.withReturns] using ends.texts_withReturns.symm
        refine ⟨.trivia (.comment ⟨body.text ++ ['\r'], absent⟩) :: rest, ⟨?_, later⟩, ?_, ?_⟩
        · change ∀ c ∈ (Part.texts rest).head?, c = '\n'
          simp [split]
        · rw [Part.texts_cons, Part.texts_cons, crlf_append, whole, text, crlf_newline, split]
          simp [Part.text, Trivia.text]
        · intro α yields nothing start
          have same := alike nothing (start.after (Part.trivia (.comment body)).text)
          rw [Part.filterMap_located_cons, nothing, ← Position.after_append] at same
          have comment : (Part.trivia (.comment body)).withReturns = [.trivia (.comment body)] := rfl
          rw [Part.filterMap_located_cons, nothing, List.flatMap_cons, comment, List.singleton_append,
            Part.filterMap_located_cons, nothing, ← same]
          simp [Part.text, Trivia.text, Blank.char]
      · refine ⟨p.withReturns ++ others, ?_, ?_, alike.append_left _⟩
        · refine ends.divided_withReturns ?_ later split
          intro body comment
          exact Classical.byContradiction fun some => ended ⟨some, body, comment⟩
        · rw [Part.texts_append, ends.texts_withReturns, split, Part.texts_cons, crlf_append]

/-! ## Scans -/

namespace Part

variable {source : String} {left right : List Char} {p : Part}

theorem Ends.token?_withReturns (ends : p.Ends right) (split : source.toList = left ++ p.text ++ right) :
    ((located (Position.start.after (crlf left)) p.withReturns).filterMap
      fun (place, p) => p.token? place) =
        ((p.token? (Position.start.after left)).map (Token.withReturns source)).toList := by
  cases p with
  | lexeme l =>
      have span := Position.span_crlf split
      have line := Position.line_crlf left l.text
      change [_] = [_]
      simp only [Token.withReturns, l.kind_withReturns, l.literal_withReturns, l.text_withReturns,
        Lexeme.spelling, String.toList_ofList, text] at span line ⊢
      rw [span, line]
  | trivia t =>
      cases t with
      | blank b => cases b <;> rfl
      | comment body => rfl
  | stray | unclosed => rfl

theorem Ends.fault?_withReturns (ends : p.Ends right) (split : source.toList = left ++ p.text ++ right) :
    ((located (Position.start.after (crlf left)) p.withReturns).filterMap
      fun (place, p) => p.fault? place) =
        ((p.fault? (Position.start.after left)).map (Fault.withReturns source)).toList := by
  have span := Position.span_crlf split
  have line := Position.line_crlf left p.text
  cases p with
  | stray c =>
      rw [crlf_eq_self (newline_not_mem_stray ends)] at span line
      change [_] = [_]
      simp only [Fault.withReturns, text] at span line ⊢
      rw [span, line]
  | unclosed body =>
      rw [text, crlf_cons_of_ne (by decide)] at span line
      change [_] = [_]
      simp only [Fault.withReturns] at span line ⊢
      rw [span, line]
  | lexeme l => rfl
  | trivia t =>
      cases t with
      | blank b => cases b <;> rfl
      | comment body => rfl

end Part

/-- The end of input is moved by all line breaks. -/
theorem Token.eof_crlf (source : String) :
    eof (Position.start.after (crlf source.toList)) =
      (eof (Position.start.after source.toList)).withReturns source := by
  have span : (Position.start.after (crlf source.toList)).span [] =
      ((Position.start.after source.toList).span []).withReturns source :=
    Position.span_crlf (show source.toList = source.toList ++ [] ++ [] by simp)
  have line : (Position.start.after (crlf source.toList)).line =
      (Position.start.after source.toList).line :=
    Position.line_crlf source.toList []
  rw [eof, span, line]
  rfl

/-- With a carriage return in front of every line break a source has the same tokens and faults. Each
is on its line and has its kind or cause and its number; lexemes and strings have the carriage
returns too, and spans are moved and grow by the line breaks before and inside them. -/
theorem scan_crlf (source : String) :
    (scan (String.ofList (crlf source.toList))).tokens =
        (scan source).tokens.map (Token.withReturns source) ∧
      (scan (String.ofList (crlf source.toList))).faults =
        (scan source).faults.map (Fault.withReturns source) := by
  obtain ⟨parts, divided, split⟩ := exists_divided source.toList
  obtain ⟨others, returned, joined, alike⟩ := divided.exists_withReturns
  have text : Part.texts others = (String.ofList (crlf source.toList)).toList := by
    rw [joined, split, String.toList_ofList]
  rw [scan_eq_outcome divided split, scan_eq_outcome returned text]
  constructor
  · have tokens := Part.filterMap_located_withReturns
      (fun _ _ _ split ends => ends.token?_withReturns split) divided [] split.symm
    change _ ++ [_] = List.map _ (_ ++ [_])
    rw [List.map_append, alike (fun _ _ => rfl), joined, split, Token.eof_crlf]
    exact congrArg (· ++ _) tokens
  · have faults := Part.filterMap_located_withReturns
      (fun _ _ _ split ends => ends.fault?_withReturns split) divided [] split.symm
    exact (alike (fun _ _ => rfl) .start).trans faults

-- The comment takes in the first carriage return, and the open string contains the second.
example : (scan (String.ofList (crlf "// é\n\"a\nb".toList))).faults =
    [{ cause := .unclosed, line := 3, span := ⟨7, 5⟩ }] := by decide +kernel

end LoxLexer
