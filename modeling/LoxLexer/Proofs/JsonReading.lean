-- SUMMARY: Printed JSON values are read as what they denote, at any depth and in front of any text.
import LoxLexer.Json
import LoxLexer.Proofs.JsonReader

/-!
# Reading printed JSON

What the reader makes of a printed string, number or mark does not depend on what follows,
except that a number must be followed by something else than another word. So the reader
comes through a printed value to the place behind it, and through containers item by item.
-/

namespace LoxLexer

namespace Reader

variable {phase next : Phase} {place : Place} {c : Char} {rest : List Char}

/-- A character that completes no symbol. -/
theorem run_cons (step : phase.step? c = some ([], next)) :
    run phase place (c :: rest) = run next place rest := by
  rw [run, step]
  rfl

/-! ## Blanks -/

theorem run_lineTo (depth : Nat) :
    run .between place (Json.lineTo depth ++ rest) = run .between place rest := by
  have newline (text : List Char) :
      run .between place ('\n' :: text) = run .between place text := rfl
  have space (text : List Char) :
      run .between place (' ' :: text) = run .between place text := rfl
  rw [Json.lineTo, List.cons_append, newline]
  generalize 2 * depth = n
  induction n with
  | zero => rfl
  | succ n ih => rw [List.replicate_succ, List.cons_append, space, ih]

/-! ## Strings -/

theorem hexDigit?_digitChar {n : Nat} (small : n < 16) : hexDigit? (Nat.digitChar n) = some n := by
  revert n
  decide

theorem run_unit {read : Partial} {count value digit : Nat} (meaning : hexDigit? c = some digit)
    (more : count < 3) : run (.unit read count value) place (c :: rest) =
      run (.unit read (count + 1) (16 * value + digit)) place rest :=
  run_cons (by simp [Phase.step?, meaning, more])

/-- A character is written as an escape of two characters or of six, or as itself. -/
theorem escape_cases (c : Char) :
    (∃ e, e ≠ 'u' ∧ escaped? e = some c ∧ Json.escape c = ['\\', e]) ∨
      (c.toNat < 0x20 ∧ Json.escape c =
        ['\\', 'u', '0', '0', Nat.digitChar (c.toNat / 16), Nat.digitChar (c.toNat % 16)]) ∨
      (c ≠ '"' ∧ c ≠ '\\' ∧ ¬ c.toNat < 0x20 ∧ Json.escape c = [c]) := by
  unfold Json.escape
  split_ifs with quote backslash _ _ _ _ _ control
  on_goal 9 => exact .inr (.inr ⟨quote, backslash, control, rfl⟩)
  on_goal 8 => exact .inr (.inl ⟨control, rfl⟩)
  all_goals
    subst c
    exact .inl ⟨_, by decide, rfl, rfl⟩

/-- A character is read from its written form. -/
theorem run_escape (read : List Char) (c : Char) :
    run (.string ⟨read, none⟩) place (Json.escape c ++ rest) =
      run (.string ⟨read ++ [c], none⟩) place rest := by
  rcases escape_cases c with
    ⟨e, notUnit, meaning, text⟩ | ⟨control, text⟩ | ⟨quote, backslash, plain, text⟩
  · simp [text, run, Phase.step?, notUnit, meaning, Partial.push?]
  · have zero : hexDigit? '0' = some 0 := by decide
    have upper := hexDigit?_digitChar (n := c.toNat / 16) (by omega)
    have lower := hexDigit?_digitChar (n := c.toNat % 16) (by omega)
    have value : 16 * (c.toNat / 16) + c.toNat % 16 = c.toNat := Nat.div_add_mod _ _
    have unit : Partial.pushUnit? ⟨read, none⟩ c.toNat = some ⟨read ++ [c], none⟩ := by
      simp [Partial.pushUnit?, show ¬ 0xD800 ≤ c.toNat by omega, show ¬ 0xDC00 ≤ c.toNat by omega]
    rw [text]
    calc run (.string ⟨read, none⟩) place ('\\' :: 'u' :: '0' :: '0' ::
          Nat.digitChar (c.toNat / 16) :: Nat.digitChar (c.toNat % 16) :: rest)
      _ = run (.unit ⟨read, none⟩ 0 0) place ('0' :: '0' ::
            Nat.digitChar (c.toNat / 16) :: Nat.digitChar (c.toNat % 16) :: rest) := rfl
      _ = run (.unit ⟨read, none⟩ 3 (c.toNat / 16)) place
            (Nat.digitChar (c.toNat % 16) :: rest) := by
          rw [run_unit zero (by decide), run_unit zero (by decide), run_unit upper (by decide)]
          simp
      _ = run (.string ⟨read ++ [c], none⟩) place rest := by
          refine run_cons ?_
          simp [Phase.step?, lower, value, unit]
  · simp [text, run, Phase.step?, quote, backslash, plain, Partial.push?]

/-- A quoted text is read as one symbol. -/
theorem run_quote (text : String) :
    run .between place (Json.quote text ++ rest) =
      (place.take? (.string text)).bind fun place => run .between place rest := by
  have opened : run .between place (Json.quote text ++ rest) =
      run (.string ⟨[], none⟩) place (text.toList.flatMap Json.escape ++ '"' :: rest) := by
    simp [Json.quote]
    rfl
  have closed (read : List Char) : run (.string ⟨read, none⟩) place ('"' :: rest) =
      (place.take? (.string (String.ofList read))).bind fun place => run .between place rest := by
    simp [run, Phase.step?]
  have through (chars read : List Char) :
      run (.string ⟨read, none⟩) place (chars.flatMap Json.escape ++ '"' :: rest) =
        run (.string ⟨read ++ chars, none⟩) place ('"' :: rest) := by
    induction chars generalizing read with
    | nil => simp
    | cons c chars ih =>
        rw [List.flatMap_cons, List.append_assoc, run_escape, ih, List.append_assoc]
        rfl
  rw [opened, through, closed, List.nil_append, String.ofList_toList]

/-! ## Words -/

/-- What may stand behind a word. -/
def IsStop (rest : List Char) : Prop := ∀ c ∈ rest.head?, isWordChar c = false

/-- A word goes on to its last character. -/
theorem run_wordChars (read : List Char) {chars : List Char}
    (inside : ∀ c ∈ chars, isWordChar c = true) :
    run (.word read) place (chars ++ rest) = run (.word (read ++ chars)) place rest := by
  induction chars generalizing read with
  | nil => simp
  | cons c chars ih =>
      obtain ⟨first, others⟩ := List.forall_mem_cons.mp inside
      have step : (Phase.word read).step? c = some ([], .word (read ++ [c])) := if_pos first
      rw [List.cons_append, run_cons step, ih _ others, List.append_assoc]
      rfl

/-- The end of a word completes a symbol. -/
theorem run_wordEnd {word : List Char} {value : Datum} (meaning : word? word = some value)
    (stop : IsStop rest) :
    run (.word word) place rest =
      (place.take? (.plain value)).bind fun place => run .between place rest := by
  cases rest with
  | nil =>
      simp [run, Phase.stop?, meaning]
  | cons c rest =>
      have ends : isWordChar c = false := stop c rfl
      cases begun : Phase.begin? c <;> cases taken : place.take? (.plain value) <;>
        simp [run, Phase.step?, ends, meaning, begun, taken]

/-- A word is read as one symbol. -/
theorem run_word {word : List Char} {value : Datum} (inside : ∀ c ∈ word, isWordChar c = true)
    (nonempty : word ≠ []) (meaning : word? word = some value) (stop : IsStop rest) :
    run .between place (word ++ rest) =
      (place.take? (.plain value)).bind fun place => run .between place rest := by
  obtain ⟨c, chars, rfl⟩ := List.exists_cons_of_ne_nil nonempty
  obtain ⟨first, others⟩ := List.forall_mem_cons.mp inside
  have begins : Phase.between.step? c = some ([], .word [c]) := if_pos first
  rw [List.cons_append, run_cons begins, run_wordChars [c] others]
  exact run_wordEnd meaning stop

end Reader

/-! ## Values -/

namespace NumberForm

variable (n : NumberForm)

theorem isWordChar_text : ∀ c ∈ n.text, Reader.isWordChar c = true := by
  have digits (d : Digits) : ∀ c ∈ d.text, Reader.isWordChar c = true := by
    intro c member
    have digit : c.isDigit = true := d.isDigit c member
    simp [Reader.isWordChar, Char.isAlphanum, digit]
  have fraction : ∀ c ∈ fractionText n.fraction, Reader.isWordChar c = true := by
    cases n.fraction with
    | none => exact List.forall_mem_nil _
    | some d => exact List.forall_mem_cons.mpr ⟨by decide, digits d⟩
  have power : ∀ c ∈ powerText n.power, Reader.isWordChar c = true := by
    cases n.power with
    | none => exact List.forall_mem_nil _
    | some power =>
        refine List.forall_mem_cons.mpr ⟨by decide, List.forall_mem_cons.mpr ⟨?_, digits _⟩⟩
        split <;> rfl
  have sign : ∀ c ∈ if n.negative then ['-'] else [], Reader.isWordChar c = true := by
    cases n.negative with
    | true => exact List.all_eq_true.mp rfl
    | false => exact List.forall_mem_nil _
  simp only [text, List.forall_mem_append]
  exact ⟨sign, digits n.whole, fraction, power⟩

theorem text_ne (word : List Char) (other : SignedDecimal.read? word = none) : n.text ≠ word := by
  rintro rfl
  rw [read?_text] at other
  cases other

theorem word?_text : Reader.word? n.text = some (.number n.value) := by
  rw [Reader.word?, if_neg (n.text_ne _ (by decide)), if_neg (n.text_ne _ (by decide)),
    if_neg (n.text_ne _ (by decide)), read?_text]
  rfl

end NumberForm

mutual

/-- What a JSON value denotes: the same, with numbers instead of their written forms. -/
inductive Json.Denotes : Json → Datum → Prop
  | null : Denotes .null .null
  | number (n : NumberForm) : Denotes (.number n.text) (.number n.value)
  | string (text : String) : Denotes (.string text) (.string text)
  | array {items values} : ItemsDenote items values → Denotes (.array items) (.array values)
  | object {fields values} : FieldsDenote fields values → Denotes (.object fields) (.object values)

inductive Json.ItemsDenote : List Json → List Datum → Prop
  | nil : ItemsDenote [] []
  | cons {item value items values} : Json.Denotes item value → ItemsDenote items values →
    ItemsDenote (item :: items) (value :: values)

inductive Json.FieldsDenote : List (String × Json) → List (String × Datum) → Prop
  | nil : FieldsDenote [] []
  | cons (name : String) {item value fields values} : Json.Denotes item value →
    FieldsDenote fields values → FieldsDenote ((name, item) :: fields) ((name, value) :: values)

end

/-! ## Containers -/

namespace Json

/-- The text of a container behind one of its parts. -/
def others (depth : Nat) (closing : Char) : List (List Char) → List Char
  | [] => lineTo depth ++ [closing]
  | part :: parts => ',' :: (lineTo (depth + 1) ++ (part ++ others depth closing parts))

variable {depth : Nat} {opening closing : Char} {part : List Char} {parts : List (List Char)}

theorem enclose_cons : enclose depth opening closing (part :: parts) =
    opening :: (lineTo (depth + 1) ++ (part ++ others depth closing parts)) := by
  rw [enclose, if_neg (List.cons_ne_nil _ _), List.cons_append, List.cons_append, List.map_cons]
  congr 1
  induction parts generalizing part with
  | nil => simp [others]
  | cons next parts ih =>
      rw [List.map_cons, List.intercalate_cons_cons, others, ← ih]
      simp

theorem isStop_others (rest : List Char) : Reader.IsStop (others depth closing parts ++ rest) := by
  cases parts with
  | nil | cons _ _ =>
      rintro c ⟨⟩
      decide

end Json

namespace Reader

open Json

variable {rest : List Char}

section Marks

variable (fresh : Bool) (v : Datum) (stack : List Frame) (items : List Datum)
  (fields : List (String × Datum)) (key : String)

theorem run_openArray : run .between (.value fresh stack) ('[' :: rest) =
    run .between (.value true (.array [] :: stack)) rest := rfl

theorem run_openObject : run .between (.value fresh stack) ('{' :: rest) =
    run .between (.name true [] stack) rest := rfl

theorem run_nextItem : run .between (.behind v (.array items :: stack)) (',' :: rest) =
    run .between (.value false (.array (items ++ [v]) :: stack)) rest := rfl

theorem run_nextField : run .between (.behind v (.object fields key :: stack)) (',' :: rest) =
    run .between (.name false (fields ++ [(key, v)]) stack) rest := rfl

/-- The name of a field, up to its value. -/
theorem run_name : run .between (.name fresh fields stack) (quote key ++ ':' :: ' ' :: rest) =
    run .between (.value false (.object fields key :: stack)) rest := by
  rw [run_quote]
  cases fresh <;> rfl

end Marks

-- The induction is on what is denoted, and the stack is any: inside a container it is longer.
mutual

/-- A value is read where a value may come. -/
theorem run_pretty {v : Json} {d : Datum} (denotes : v.Denotes d) (depth : Nat) (fresh : Bool)
    (stack : List Frame) (rest : List Char) (stop : IsStop rest) :
    run .between (.value fresh stack) (v.pretty depth ++ rest) =
      run .between (.behind d stack) rest := by
  cases denotes with
  | null =>
      have inside : ∀ c ∈ ['n', 'u', 'l', 'l'], isWordChar c = true := List.all_eq_true.mp rfl
      exact run_word inside (List.cons_ne_nil _ _) rfl stop
  | number n => exact run_word n.isWordChar_text (n.text_ne [] (by decide)) n.word?_text stop
  | string text =>
      rw [pretty, run_quote]
      rfl
  | array items =>
      cases items with
      | nil => rfl
      | cons item items =>
          simp only [pretty, prettyItems, enclose_cons, List.cons_append, List.append_assoc]
          rw [run_openArray, run_lineTo, run_pretty item _ _ _ _ (isStop_others rest),
            run_items items]
          rfl
  | object fields =>
      cases fields with
      | nil => rfl
      | cons key field fields =>
          simp only [pretty, prettyFields, enclose_cons, List.cons_append, List.append_assoc,
            List.nil_append]
          rw [run_openObject, run_lineTo, run_name, run_pretty field _ _ _ _ (isStop_others rest),
            run_fields fields]
          rfl

/-- Behind an item, the rest of its array is read. -/
theorem run_items {items : List Json} {values : List Datum} (denote : ItemsDenote items values)
    (depth : Nat) (done : List Datum) (v : Datum) (stack : List Frame) (rest : List Char) :
    run .between (.behind v (.array done :: stack))
      (others depth ']' (prettyItems (depth + 1) items) ++ rest) =
      run .between (.behind (.array (done ++ v :: values)) stack) rest := by
  cases denote with
  | nil =>
      rw [prettyItems, others, List.append_assoc, run_lineTo]
      rfl
  | cons item items =>
      simp only [prettyItems, others, List.cons_append, List.append_assoc]
      rw [run_nextItem, run_lineTo, run_pretty item _ _ _ _ (isStop_others rest), run_items items,
        List.append_assoc]
      rfl

/-- Behind the value of a field, the rest of its object is read. -/
theorem run_fields {fields : List (String × Json)} {values : List (String × Datum)}
    (denote : FieldsDenote fields values) (depth : Nat) (done : List (String × Datum))
    (key : String) (v : Datum) (stack : List Frame) (rest : List Char) :
    run .between (.behind v (.object done key :: stack))
      (others depth '}' (prettyFields (depth + 1) fields) ++ rest) =
      run .between (.behind (.object (done ++ (key, v) :: values)) stack) rest := by
  cases denote with
  | nil =>
      rw [prettyFields, others, List.append_assoc, run_lineTo]
      rfl
  | cons next field fields =>
      simp only [prettyFields, others, List.cons_append, List.append_assoc, List.nil_append]
      rw [run_nextField, run_lineTo, run_name, run_pretty field _ _ _ _ (isStop_others rest),
        run_fields fields, List.append_assoc]
      rfl

end

end Reader

/-- A printed value and a line break are read as what the value denotes. -/
theorem Json.read?_pretty {v : Json} {d : Datum} (denotes : v.Denotes d) :
    Datum.read? (v.pretty 0 ++ ['\n']) = some d := by
  have stop : Reader.IsStop ['\n'] := by
    rintro c ⟨⟩
    decide
  rw [Datum.read?, Reader.run_pretty denotes 0 false [] _ stop]
  rfl

end LoxLexer
