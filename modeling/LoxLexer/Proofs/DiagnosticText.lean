-- SUMMARY: The diagnostics of a source are lines, and their joined text tells the line, the cause and the character of every fault.
import LoxLexer.Proofs.InputLines
import LoxLexer.Proofs.Modes
import LoxLexer.Proofs.NumberText
import LoxLexer.Proofs.Reporting

/-!
# The text of diagnostics

The diagnostic of a stray character shows the character as it is. No character that ends a line is
ever stray, so a diagnostic stays on one line, and joined diagnostics can be told apart again. Each
line begins with a number that a bracket ends, and no two messages are the same.
-/

namespace LoxLexer

/-! ## One diagnostic -/

/-- What the diagnostic of a fault tells of it. -/
def Fault.told (f : Fault) : Nat × Cause := (f.line, f.cause)

/-- The diagnostic that tells a line of the source and a cause. -/
def toldText (told : Nat × Cause) : String :=
  "[line " ++ toString told.1 ++ "] Error : " ++ told.2.message

theorem Fault.text_eq_toldText (f : Fault) : f.diagnostic.text = toldText f.told :=
  f.text_diagnostic

namespace Cause

theorem toList_message_stray (c : Char) :
    (stray c).message.toList = "Unexpected Character ".toList ++ [c] := by
  have message : (stray c).message = "Unexpected Character " ++ String.singleton c := rfl
  rw [message, String.toList_append, String.toList_singleton]

/-- The two messages differ in their third characters. -/
theorem message_stray_ne (c : Char) : (stray c).message ≠ unclosed.message := by
  intro same
  have beginnings : ("Unexpected Character ".toList ++ [c]).take 3 =
      "Unterminated Text".toList.take 3 := by
    rw [← toList_message_stray, same]
    rfl
  rw [List.take_append_of_le_length (by decide)] at beginnings
  exact absurd beginnings (by decide)

theorem message_injective {a b : Cause} (same : a.message = b.message) : a = b := by
  cases a with
  | stray c =>
      cases b with
      | stray d =>
          have texts := congrArg String.toList same
          rw [toList_message_stray, toList_message_stray] at texts
          rw [List.cons.inj (List.append_cancel_left texts) |>.1]
      | unclosed => exact absurd same (message_stray_ne c)
  | unclosed =>
      cases b with
      | stray d => exact absurd same.symm (message_stray_ne d)
      | unclosed => rfl

end Cause

theorem toList_toldText (told : Nat × Cause) : (toldText told).toList =
    "[line ".toList ++ ((Digits.ofNat told.1).text ++
      (']' :: " Error : ".toList ++ told.2.message.toList)) := by
  simp [toldText, Digits.ofNat]

/-- A diagnostic tells where its number ends, and its message tells the cause. -/
theorem toldText_injective {a b : Nat × Cause} (same : toldText a = toldText b) : a = b := by
  have texts := congrArg String.toList same
  rw [toList_toldText, toList_toldText] at texts
  have stop (rest : List Char) : NumberForm.IsEnd (']' :: rest) := by
    intro c head
    cases head
    rfl
  have digits := congrArg SignedDecimal.digits? (List.append_cancel_left texts)
  rw [List.cons_append, List.cons_append, NumberForm.digits?_append _ (stop _),
    NumberForm.digits?_append _ (stop _), Option.some.injEq, Prod.mk.injEq] at digits
  obtain ⟨number, rest⟩ := digits
  have line : a.1 = b.1 := by
    rw [← Digits.value_ofNat a.1, Digits.ext number, Digits.value_ofNat]
  have message : a.2.message.toList = b.2.message.toList :=
    List.append_cancel_left (List.cons.inj rest).2
  exact Prod.ext line (Cause.message_injective (String.toList_injective message))

/-- Only a stray character can bring the end of a line into a diagnostic. -/
theorem not_mem_toldText {told : Nat × Cause} {d : Char} (ends : d = '\n' ∨ d = '\r')
    (other : told.2 ≠ .stray d) : d ∉ (toldText told).toList := by
  obtain ⟨line, cause⟩ := told
  have noDigit : d ∉ (Digits.ofNat line).text := by
    rcases ends with rfl | rfl
    · exact Digits.blank_not_mem_text _ .newline
    · exact Digits.blank_not_mem_text _ .carriageReturn
  have message : d ∉ cause.message.toList := by
    cases cause with
    | stray c =>
        have different : d ≠ c := fun eq => other (congrArg Cause.stray eq.symm)
        rw [Cause.toList_message_stray, List.mem_append, List.mem_singleton, not_or]
        exact ⟨by rcases ends with rfl | rfl <;> decide, different⟩
    | unclosed => rcases ends with rfl | rfl <;> decide
  rw [toList_toldText]
  rcases ends with rfl | rfl <;> simp [noDigit, message]

/-! ## Joined lines -/

section Lines

variable {text : List Char} {a b lines : List String}

/-- A text has its lines in one way only. -/
theorem HasLines.unique (ha : HasLines text a) (hb : HasLines text b) : a = b := by
  have injective : ∀ s t : String, encoding s.toList = encoding t.toList → s = t := by
    intro s t same
    have read : decode? (encoding s.toList) = some t := decode?_eq_some_iff.mpr same
    exact Option.some.inj ((decode?_eq_some_iff.mpr rfl).symm.trans read)
  have bytes := ha.inputLines_encoding.symm.trans hb.inputLines_encoding
  exact (List.map_inj_right injective).mp bytes

/-- Joined lines are the lines of the text. -/
theorem hasLines_intercalate (nonempty : ∀ line ∈ lines, line.toList ≠ [])
    (unbroken : ∀ line ∈ lines, '\n' ∉ line.toList ∧ '\r' ∉ line.toList) :
    HasLines ("\n".intercalate lines).toList lines := by
  induction lines with
  | nil => exact .none
  | cons line others ih =>
      obtain ⟨first, nonempty⟩ := List.forall_mem_cons.mp nonempty
      obtain ⟨⟨noFeed, noReturn⟩, unbroken⟩ := List.forall_mem_cons.mp unbroken
      cases others with
      | nil => simpa using HasLines.unended first noFeed
      | cons next others =>
          have last : line.toList.getLast? ≠ some '\r' :=
            fun last => noReturn (List.mem_of_getLast? last)
          simpa using HasLines.feed noFeed last (ih nonempty unbroken)

end Lines

/-! ## The diagnostics of a source -/

/-- The diagnostics of a source in one text. -/
def diagnosticText (source : String) : String :=
  "\n".intercalate ((scan source).faults.map fun f => f.diagnostic.text)

/-- No fault is about a character that the grammar knows. -/
theorem unknown_of_mem_faults {source : String} {f : Fault} (member : f ∈ (scan source).faults)
    {c : Char} (stray : f.cause = .stray c) : ¬ IsKnown c := by
  obtain ⟨parts, divided, split⟩ := exists_divided source.toList
  rw [scan_eq_outcome divided split] at member
  obtain ⟨before, p, after, rfl, yields⟩ := Part.mem_filterMap_located.mp member
  cases p with
  | stray d =>
      cases yields
      cases stray
      exact (Lead.of_eq_stray_iff c).mp divided.right.1
  | unclosed body =>
      cases yields
      cases stray
  | lexeme | trivia => cases yields

theorem unbroken_of_mem_faults {source : String} {f : Fault} (member : f ∈ (scan source).faults) :
    '\n' ∉ f.diagnostic.text.toList ∧ '\r' ∉ f.diagnostic.text.toList := by
  have other {d : Char} (known : IsKnown d) : f.told.2 ≠ .stray d :=
    fun stray => unknown_of_mem_faults member stray known
  rw [f.text_eq_toldText]
  exact ⟨not_mem_toldText (.inl rfl) (other (by decide)),
    not_mem_toldText (.inr rfl) (other (by decide))⟩

theorem hasLines_diagnosticText (source : String) :
    HasLines (diagnosticText source).toList
      ((scan source).faults.map fun f => f.diagnostic.text) := by
  refine hasLines_intercalate ?_ ?_
  · refine List.forall_mem_map.mpr fun f _ => ?_
    rw [f.text_eq_toldText, toList_toldText]
    exact List.cons_ne_nil _ _
  · exact List.forall_mem_map.mpr fun f member => unbroken_of_mem_faults member

/-- The diagnostics of a source are the lines of their joined text, one for each fault in order. Two
sources have the same text exactly if they have as many faults and these have, one by one, the same
line and the same cause. -/
theorem diagnosticText_tells_faults :
    (∀ source, ∀ f ∈ (scan source).faults,
      '\n' ∉ f.diagnostic.text.toList ∧ '\r' ∉ f.diagnostic.text.toList) ∧
    (∀ source, HasLines (diagnosticText source).toList
      ((scan source).faults.map fun f => f.diagnostic.text)) ∧
    ∀ s t, diagnosticText s = diagnosticText t ↔
      (scan s).faults.map (fun f => (f.line, f.cause)) =
        (scan t).faults.map fun f => (f.line, f.cause) := by
  refine ⟨fun _ _ member => unbroken_of_mem_faults member, hasLines_diagnosticText, ?_⟩
  intro s t
  have told (source : String) : ((scan source).faults.map fun f => f.diagnostic.text) =
      ((scan source).faults.map Fault.told).map toldText := by
    rw [List.map_map]
    exact List.map_congr_left fun f _ => f.text_eq_toldText
  constructor
  · intro same
    have lines := hasLines_diagnosticText t
    rw [← same] at lines
    have texts := (hasLines_diagnosticText s).unique lines
    rw [told, told] at texts
    exact (List.map_inj_right fun _ _ => toldText_injective).mp texts
  · intro same
    have same : (scan s).faults.map Fault.told = (scan t).faults.map Fault.told := same
    rw [diagnosticText, diagnosticText, told, told, same]

/-- Other readers end a line at this character. -/
theorem diagnosticText_tells_line_separator :
    let f : Fault := { cause := .stray '\u2028', line := 2, span := ⟨1, 3⟩ }
    f ∈ (scan "\n\u2028").faults ∧
      '\n' ∉ f.diagnostic.text.toList ∧ '\r' ∉ f.diagnostic.text.toList := by
  intro f
  have member : f ∈ (scan "\n\u2028").faults := by decide +kernel
  exact ⟨member, diagnosticText_tells_faults.1 _ f member⟩

end LoxLexer
