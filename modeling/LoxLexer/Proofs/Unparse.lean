-- SUMMARY: Writing lexemes out and scanning the text: which layouts give their lexemes back, and that blanks between all lexemes always do.
import LoxLexer.Proofs.LongestMatch
import LoxLexer.Proofs.Layout

/-!
# Writing lexemes out

A layout written out is a source. Its scan gives the lexemes back if the layout
keeps apart, since its parts are then divided. The converse is by the spelling of
the tokens alone: a source with these tokens and no fault has no room for a comment,
so its parts are those of the layout.
-/

namespace LoxLexer

namespace Layout

variable {w : List Blank} {items : Layout}

/-! ## Reading a layout back -/

/-- Every character of a text is in a lexeme or in another part. -/
theorem count_texts (c : Char) (ps : List Part) :
    (Part.texts ps).count c = ((Part.lexemes ps).flatMap Lexeme.text).count c +
      (Part.texts (ps.filter (·.lexeme?.isNone))).count c := by
  induction ps with
  | nil => rfl
  | cons p ps ih =>
      rw [Part.texts_cons, List.count_append, ih]
      cases found : p.lexeme? with
      | none =>
          simp only [Part.lexemes, List.filterMap_cons, found, List.filter_cons, Option.isNone_none,
            if_true, Part.texts_cons, List.count_append]
          omega
      | some l =>
          have text : p.text = l.text := by
            cases p <;> cases found
            rfl
          simp only [Part.lexemes, List.filterMap_cons, found, List.filter_cons, Option.isNone_some,
            Bool.false_eq_true, if_false, List.flatMap_cons, List.count_append, text]
          omega

theorem count_slash_text (w : List Blank) (items : Layout) :
    (blanks w ++ text items).count '/' = ((items.map Prod.fst).flatMap Lexeme.text).count '/' := by
  have none : ∀ w : List Blank, (blanks w).count '/' = 0 := by
    intro w
    rw [List.count_eq_zero, blanks, List.mem_map]
    rintro ⟨b, -, slash⟩
    cases b <;> cases slash
  induction items generalizing w with
  | nil => simp [text, none]
  | cons item items ih =>
      obtain ⟨l, u⟩ := item
      have rest := ih u
      simp only [List.count_append, none, text, List.flatMap_cons, List.map_cons] at rest ⊢
      omega

/-- If a text of blanks and lexemes divides into parts with these same lexemes, no
comment is among the parts: its slashes would be too many. -/
theorem eq_blank_of_lexemes_eq {ps : List Part} (split : Part.texts ps = blanks w ++ text items)
    (same : Part.lexemes ps = items.map Prod.fst) {t : Trivia} (member : .trivia t ∈ ps) :
    ∃ b, t = .blank b := by
  have count := count_texts '/' ps
  rw [split, same, count_slash_text] at count
  have none := List.count_eq_zero.mp (Nat.left_eq_add.mp count)
  cases t with
  | blank b => exact ⟨b, rfl⟩
  | comment body =>
      refine absurd ?_ none
      exact List.mem_flatMap.mpr ⟨_, List.mem_filter.mpr ⟨member, rfl⟩, List.mem_cons_self ..⟩

/-- A divided list begins with the blanks that its texts begin with. -/
theorem eq_blankParts_append {ps : List Part} {rest : List Char} (divided : Divided ps)
    (split : Part.texts ps = blanks w ++ rest) :
    ∃ others, ps = blankParts w ++ others ∧ Divided others ∧ Part.texts others = rest := by
  induction w generalizing ps with
  | nil => exact ⟨ps, rfl, divided, split⟩
  | cons b w ih =>
      replace split : Part.texts ps = (Part.trivia (.blank b)).text ++ (blanks w ++ rest) := split
      obtain ⟨qs, rfl, divided, split⟩ := divided.eq_cons split trivial
      obtain ⟨others, rfl, divided, split⟩ := ih divided split
      exact ⟨others, rfl, divided, split⟩

/-- Parts without comments and faults, with the text and the lexemes of a layout, are
its parts. -/
theorem eq_parts_of_lexemes_eq {ps : List Part} (divided : Divided ps)
    (known : ∀ p ∈ ps, (∃ l, p = .lexeme l) ∨ ∃ b, p = .trivia (.blank b))
    (split : Part.texts ps = blanks w ++ text items) (same : Part.lexemes ps = items.map Prod.fst) :
    ps = blankParts w ++ parts items := by
  induction items generalizing w ps with
  | nil =>
      obtain ⟨others, rfl, -, split⟩ := eq_blankParts_append divided split
      rw [Part.texts_eq_nil_iff.mp split]
      rfl
  | cons item items ih =>
      obtain ⟨l, u⟩ := item
      obtain ⟨others, rfl, divided, split⟩ := eq_blankParts_append divided split
      rw [lexemes_blankParts_append] at same
      replace split : Part.texts others = l.text ++ (blanks u ++ text items) := by
        simpa [text] using split
      cases others with
      | nil => cases same
      | cons p qs =>
          rcases known p (by simp) with ⟨l', rfl⟩ | ⟨b, rfl⟩
          · obtain ⟨rfl, same_rest⟩ := List.cons.inj same
            have rest := List.append_cancel_left split
            have known' : ∀ p ∈ qs, _ := fun p member => known p (by simp [member])
            rw [ih divided.2 known' rest same_rest]
            rfl
          · obtain ⟨c, tail, eq⟩ := List.exists_cons_of_ne_nil l.text_ne_nil
            rw [eq] at split
            exact absurd (List.cons.inj split).1.symm ((Lexeme.first eq).noBlank b)

end Layout

theorem Lexeme.spelling_injective {l m : Lexeme} (same : l.spelling = m.spelling) : l = m := by
  have text : l.text = m.text := String.ofList_injective same
  exact Part.lexeme.inj (Part.eq_of_text_eq trivial trivial text)

/-! ## Scans that give lexemes back -/

/-- A scan yields the tokens of these lexemes, wherever they are, and nothing else. -/
def Outcome.Reproduces (o : Outcome) (lexemes : List Lexeme) : Prop :=
  o.faults = [] ∧ o.tokens.map Token.content = lexemes.map Lexeme.content ++ [(.eof, "", none)]

theorem Token.map_lexeme {tokens : List Token} {lexemes : List Lexeme}
    (h : tokens.map Token.content = lexemes.map Lexeme.content ++ [(.eof, "", none)]) :
    tokens.map Token.lexeme = lexemes.map Lexeme.spelling ++ [""] := by
  have spelt := congrArg (List.map fun content => content.2.1) h
  simpa [Function.comp_def, Token.content, Lexeme.content] using spelt

namespace Layout

/-- The source that a layout is, with blanks in front. -/
def source (w : List Blank) (items : Layout) : String := String.ofList (blanks w ++ text items)

variable (w : List Blank) (items : Layout)

theorem scan_source_of_keepsApart (h : KeepsApart items) :
    (scan (source w items)).Reproduces (items.map Prod.fst) := by
  have divided : Divided (blankParts w ++ parts items) := divided_iff_keepsApart.mpr h
  have split : Part.texts (blankParts w ++ parts items) = (source w items).toList := by
    rw [source, String.toList_ofList, Part.texts_append, texts_blankParts, texts_parts]
  rw [scan_eq_outcome divided split]
  refine ⟨Part.faults_eq_nil_iff.mpr isRegular_parts, ?_⟩
  rw [Part.map_content_tokens, lexemes_parts]

theorem keepsApart_of_scan_source (clean : (scan (source w items)).faults = [])
    (same : (scan (source w items)).tokens.map Token.lexeme = items.map (·.1.spelling) ++ [""]) :
    KeepsApart items := by
  obtain ⟨ps, divided, split⟩ := exists_divided (source w items).toList
  rw [scan_eq_outcome divided split] at clean same
  rw [source, String.toList_ofList] at split
  have regular := Part.faults_eq_nil_iff.mp clean
  have lexemes : Part.lexemes ps = items.map Prod.fst := by
    rw [Token.map_lexeme Part.map_content_tokens, List.append_cancel_right_eq] at same
    refine (List.map_inj_right fun _ _ => Lexeme.spelling_injective).mp ?_
    rw [same, List.map_map]
    rfl
  have known : ∀ p ∈ ps, (∃ l, p = .lexeme l) ∨ ∃ b, p = .trivia (.blank b) := by
    intro p member
    cases p with
    | lexeme l => exact .inl ⟨l, rfl⟩
    | trivia t =>
        obtain ⟨b, rfl⟩ := eq_blank_of_lexemes_eq split lexemes member
        exact .inr ⟨b, rfl⟩
    | stray | unclosed => exact (regular _ member).elim
  rw [eq_parts_of_lexemes_eq divided known split lexemes] at divided
  exact divided_iff_keepsApart.mp divided

theorem source_spaced (u : List Blank) (ls : List Lexeme) :
    source [] (spaced u ls) =
      (String.ofList (blanks u)).intercalate (ls.map Lexeme.spelling) := by
  apply String.toList_injective
  rw [source, String.toList_ofList, String.toList_intercalate, String.toList_ofList, text_spaced,
    List.map_map]
  simp [blanks, Lexeme.spelling, Function.comp_def]

end Layout

/-! ## Writing out and scanning -/

/-- The spellings of the tokens already tell whether a layout keeps apart. -/
theorem Layout.scan_source_iff (w : List Blank) (items : Layout) :
    ((scan (source w items)).Reproduces (items.map Prod.fst) ↔ KeepsApart items) ∧
      ((scan (source w items)).faults = [] ∧
        (scan (source w items)).tokens.map Token.lexeme = items.map (·.1.spelling) ++ [""] ↔
          KeepsApart items) := by
  have forth := scan_source_of_keepsApart w items
  have back := keepsApart_of_scan_source w items
  have spelt : (scan (source w items)).Reproduces (items.map Prod.fst) →
      (scan (source w items)).tokens.map Token.lexeme = items.map (·.1.spelling) ++ [""] := by
    intro h
    rw [Token.map_lexeme h.2, List.map_map]
    rfl
  constructor
  · exact ⟨fun h => back h.1 (spelt h), forth⟩
  · exact ⟨fun h => back h.1 h.2, fun h => ⟨(forth h).1, spelt (forth h)⟩⟩

theorem Lexeme.scan_spelling (l : Lexeme) : (scan l.spelling).Reproduces [l] := by
  have alone : Layout.source [] [(l, [])] = l.spelling := by
    simp [Layout.source, blanks, Layout.text, Lexeme.spelling]
  have apart : Layout.KeepsApart [(l, [])] :=
    Layout.keepsApart_cons.mpr ⟨l.ends_nil, by simp [Layout.KeepsApart]⟩
  exact alone ▸ Layout.scan_source_of_keepsApart [] _ apart

theorem Layout.scan_spaced (b : Blank) (u : List Blank) (ls : List Lexeme) :
    (scan ((String.ofList (blanks (b :: u))).intercalate (ls.map Lexeme.spelling))).Reproduces
      ls := by
  have back := scan_source_of_keepsApart [] _ (keepsApart_spaced b u ls)
  rwa [source_spaced, map_fst_spaced] at back

/-- Each token of a scan but the last has a lexeme of the grammar. -/
theorem exists_lexemes_of_scan (s : String) :
    ∃ lexemes : List Lexeme,
      (scan s).tokens.map Token.content = lexemes.map Lexeme.content ++ [(.eof, "", none)] := by
  obtain ⟨parts, divided, split⟩ := exists_divided s.toList
  rw [scan_eq_outcome divided split]
  exact ⟨Part.lexemes parts, Part.map_content_tokens⟩

/-- The scan of a layout gives its lexemes back exactly if the layout keeps apart; a
single lexeme is always given back. The lexemes of any scan, written out with blanks
between them, give the same tokens again. -/
theorem scan_written_out :
    (∀ w items, ((scan (Layout.source w items)).Reproduces (items.map Prod.fst) ↔
        Layout.KeepsApart items) ∧
      ((scan (Layout.source w items)).faults = [] ∧ (scan (Layout.source w items)).tokens.map
        Token.lexeme = items.map (·.1.spelling) ++ [""] ↔ Layout.KeepsApart items)) ∧
    (∀ l : Lexeme, (scan l.spelling).Reproduces [l]) ∧
    ∀ s, ∃ lexemes : List Lexeme,
      (scan s).tokens.map Token.content = lexemes.map Lexeme.content ++ [(.eof, "", none)] ∧
      ∀ b u, (scan ((String.ofList (blanks (b :: u))).intercalate
        ((scan s).tokens.dropLast.map Token.lexeme))).Reproduces lexemes := by
  refine ⟨Layout.scan_source_iff, Lexeme.scan_spelling, ?_⟩
  intro s
  obtain ⟨lexemes, same⟩ := exists_lexemes_of_scan s
  refine ⟨lexemes, same, ?_⟩
  intro b u
  rw [List.map_dropLast, Token.map_lexeme same, List.dropLast_concat]
  exact Layout.scan_spaced b u lexemes

end LoxLexer
