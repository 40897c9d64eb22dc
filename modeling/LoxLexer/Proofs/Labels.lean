-- SUMMARY: Texts that are attached to a fault change nothing else about it, and in its own source its label is on the faulty text.
import LoxLexer.Proofs.Modes

/-!
# Labels

A detailed report shows the text that a fault points into and labels a stretch of it. The scan tells
the stretch in bytes, and the text is attached afterwards, as often as one likes. If the last text
attached is the source, the label is on the character that begins nothing, or on the string that is
never closed, from its quote to the end.
-/

namespace LoxLexer

/-! ## Selected text -/

/-- A span selects these characters of a text: it lies within the text and between characters, and
has the bytes of their encoding. -/
structure Span.Selects (s : Span) (text : String) (selected : List Char) : Prop where
  inside : s.stop ≤ text.utf8ByteSize
  begins : String.Pos.Raw.IsValid text ⟨s.offset⟩
  ends : String.Pos.Raw.IsValid text ⟨s.stop⟩
  bytes : text.toByteArray.extract s.offset s.stop = (String.ofList selected).toByteArray

theorem Position.selects_of_split {text : String} {before selected after : List Char}
    (split : text.toList = before ++ selected ++ after) :
    ((Position.start.after before).span selected).Selects text selected where
  inside := by
    rw [← byteLength_toList, split]
    simp only [Span.stop, span, offset_start_after, byteLength_append]
    omega
  begins := by
    rw [List.append_assoc] at split
    simpa [span] using isValid_of_split split
  ends := by simpa [Span.stop, span] using isValid_of_split split
  bytes := by simpa [Span.stop, span] using extract_of_split split

/-- Where a fault with this cause is in a source: at a stray character, or at a string that is never
closed, with all that follows it. The quote of the string is one that opens it. -/
def Cause.IsAt (source : String) (s : Span) : Cause → Prop
  | stray c => s.Selects source [c]
  | unclosed => ∃ before body, source.toList = before ++ '"' :: body ∧
    (Mode.code.after before).IsExposed ∧ '"' ∉ body ∧ s.offset = byteLength before ∧
      s.Selects source ('"' :: body)

/-! ## Attached texts -/

namespace Fault

/-- Two faults say the same, whatever texts they point into. -/
structure SaysSame (f g : Fault) : Prop where
  cause : f.cause = g.cause
  line : f.line = g.line
  span : f.span = g.span
  message : f.message = g.message
  code : f.cause.code = g.cause.code
  help : f.cause.help = g.cause.help
  labels : f.labels = g.labels

/-- The last text that is attached counts, and no other has left anything behind. -/
theorem foldl_attach (f : Fault) (earlier : List NamedText) (last : NamedText) :
    (earlier ++ [last]).foldl attach f = { f with source := last } := by
  induction earlier generalizing f with
  | nil => rfl
  | cons first earlier ih => exact ih (f.attach first)

theorem saysSame_attached (f : Fault) (source : NamedText) : SaysSame { f with source } f where
  cause := rfl
  line := rfl
  span := rfl
  message := rfl
  code := rfl
  help := rfl
  labels := rfl

end Fault

/-! ## Labels of a scan -/

/-- A quote that is read as in code opens a string. -/
theorem Mode.Meets.isExposed_of_quote {m : Mode} (meets : m.Meets (some '"')) : m.IsExposed := by
  cases m with
  | code => exact .inl rfl
  | slash => exact .inr rfl
  | comment => exact absurd (meets '"' rfl) (by decide)
  | string => cases meets

/-- A fault is where its part stands. -/
theorem Part.isAt_of_mem_faults {source : String} {parts : List Part} (divided : Divided parts)
    (split : texts parts = source.toList) {f : Fault} (member : f ∈ (outcome parts).faults) :
    f.cause.IsAt source f.span := by
  obtain ⟨before, p, after, rfl, yields⟩ := mem_filterMap_located.mp member
  have stretch : source.toList = texts before ++ p.text ++ texts after := by
    simp [← split, texts_append]
  have selects := Position.selects_of_split stretch
  cases p with
  | stray c =>
      cases yields
      exact selects
  | unclosed body =>
      have opens := divided.meets.isExposed_of_quote
      obtain ⟨absent, rfl⟩ := divided.eq_nil_of_unclosed
      cases yields
      refine ⟨texts before, body, ?_, opens, absent, Position.offset_start_after _, selects⟩
      rw [stretch, texts_nil, List.append_nil]
      rfl
  | lexeme | trivia => cases yields

/-- However many texts are attached to a fault of a source, it says what it said. If the source
comes last, the fault points into the source, and its one label is on the faulty text there. -/
theorem attached_labels_select_faults (last : NamedText) {f : Fault}
    (member : f ∈ (scan last.text).faults) (earlier : List NamedText) :
    let g := (earlier ++ [last]).foldl Fault.attach f
    g.SaysSame f ∧ g.source = last ∧ g.labels = [(g.cause.label, g.span)] ∧
      g.cause.IsAt g.source.text g.span := by
  obtain ⟨parts, divided, split⟩ := exists_divided last.text.toList
  rw [scan_eq_outcome divided split] at member
  have place := Part.isAt_of_mem_faults divided split member
  intro g
  have attached : g = { f with source := last } := f.foldl_attach earlier last
  rw [attached]
  exact ⟨f.saysSame_attached last, rfl, rfl, place⟩

/-- A string that is never closed, behind a character of two bytes and with another one in it. -/
theorem attached_labels_select_unclosed :
    let f : Fault := { cause := .unclosed, line := 2, span := ⟨3, 4⟩ }
    let last : NamedText := ⟨"b.lox", "é/\"\né"⟩
    let g := [⟨"a.lox", "@"⟩, last].foldl Fault.attach f
    f ∈ (scan last.text).faults ∧ g.SaysSame f ∧ g.source = last ∧
      g.labels = [(g.cause.label, g.span)] ∧ g.cause.IsAt g.source.text g.span := by
  intro f last
  have member : f ∈ (scan last.text).faults := by decide +kernel
  exact ⟨member, attached_labels_select_faults last member [⟨"a.lox", "@"⟩]⟩

end LoxLexer
