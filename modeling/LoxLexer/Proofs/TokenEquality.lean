-- SUMMARY: Equality of tokens is an equivalence but for numbers that are undefined, and on scanned tokens it is identity.
import LoxLexer.Rendering
import LoxLexer.Proofs.Place

/-!
# Equality of tokens

Tokens are compared by their fields, and the literals of numbers as numbers are: an undefined one is
not equal to itself, and the two zeros are equal though they are written differently. A scan yields
neither undefined numbers nor negative zeros, so among scanned tokens only equal ones agree.
-/

namespace LoxLexer

/-! ## Numbers -/

namespace Binary64

variable {x y z : Binary64}

theorem agrees_iff :
    x.agrees y = true ↔ x.isNaN = false ∧ (x = y ∨ x.magnitude = 0 ∧ y.magnitude = 0) := by
  simp [agrees]

theorem isNaN_of_magnitude_eq_zero (zero : x.magnitude = 0) : x.isNaN = false := by
  simp [isNaN, zero]

theorem agrees_symm (h : x.agrees y) : y.agrees x := by
  obtain ⟨defined, rfl | ⟨zero, zero'⟩⟩ := agrees_iff.mp h
  · exact h
  · exact agrees_iff.mpr ⟨isNaN_of_magnitude_eq_zero zero', .inr ⟨zero', zero⟩⟩

theorem agrees_trans (h : x.agrees y) (h' : y.agrees z) : x.agrees z := by
  obtain ⟨defined, rfl | ⟨zero, zero'⟩⟩ := agrees_iff.mp h
  · exact h'
  · obtain ⟨-, rfl | ⟨-, zero''⟩⟩ := agrees_iff.mp h'
    · exact h
    · exact agrees_iff.mpr ⟨defined, .inr ⟨zero, zero''⟩⟩

theorem agrees_self_iff : x.agrees x = true ↔ x.isNaN = false := by
  simp [agrees_iff]

theorem toBits_inj : x.toBits = y.toBits ↔ x = y := by
  constructor
  · intro same
    rw [← ofBits_toBits x, same, ofBits_toBits]
  · rintro rfl
    rfl

/-- What rounding yields: neither negative, a negative zero included, nor undefined. -/
def IsUnsigned (x : Binary64) : Prop := x.negative = false ∧ x.isNaN = false

theorem isUnsigned_ofRatio (numerator denominator : Nat) :
    (ofRatio numerator denominator).IsUnsigned := by
  refine ⟨rfl, decide_eq_false ?_⟩
  rw [toNat_magnitude_ofRatio]
  exact Nat.not_lt.mpr (nearest_le numerator denominator)

/-- Without a negative zero equal numbers are identical. -/
theorem IsUnsigned.agrees_iff_eq (hx : x.IsUnsigned) (hy : y.IsUnsigned) :
    x.agrees y = true ↔ x = y := by
  rw [agrees_iff]
  constructor
  · rintro ⟨-, rfl | ⟨zero, zero'⟩⟩
    · rfl
    · obtain ⟨_, _⟩ := x
      obtain ⟨_, _⟩ := y
      exact (mk.injEq ..).mpr ⟨hx.1.trans hy.1.symm, zero.trans zero'.symm⟩
  · rintro rfl
    exact ⟨hx.2, .inl rfl⟩

end Binary64

/-! ## Literals -/

/-- Literals that are both missing, the same text, or related numbers. -/
inductive Literal.Match (related : Binary64 → Binary64 → Prop) :
    Option Literal → Option Literal → Prop
  | missing : Match related none none
  | string (text : String) : Match related (some (.string text)) (some (.string text))
  | number {x y : Binary64} : related x y → Match related (some (.number x)) (some (.number y))

namespace Literal.Match

variable {r q : Binary64 → Binary64 → Prop} {a b c : Option Literal}

theorem symm (each : ∀ {x y}, r x y → r y x) (h : Match r a b) : Match r b a := by
  cases h with
  | missing => exact .missing
  | string text => exact .string text
  | number related => exact .number (each related)

theorem trans (each : ∀ {x y z}, r x y → r y z → r x z) (h : Match r a b) (h' : Match r b c) :
    Match r a c := by
  cases h with
  | missing => exact h'
  | string text => exact h'
  | number related =>
      cases h' with
      | number related' => exact .number (each related related')

theorem self_iff : Match r a a ↔ ∀ x, a = some (.number x) → r x x := by
  constructor
  · rintro h x rfl
    cases h with
    | number related => exact related
  · intro each
    match a with
    | none => exact .missing
    | some (.string text) => exact .string text
    | some (.number x) => exact .number (each x rfl)

theorem congr (each : ∀ x y, a = some (.number x) → b = some (.number y) → (r x y ↔ q x y)) :
    Match r a b ↔ Match q a b := by
  constructor
  · intro h
    cases h with
    | missing => exact .missing
    | string text => exact .string text
    | number related => exact .number ((each _ _ rfl rfl).mp related)
  · intro h
    cases h with
    | missing => exact .missing
    | string text => exact .string text
    | number related => exact .number ((each _ _ rfl rfl).mpr related)

end Literal.Match

/-! ## Tokens -/

namespace Token

variable {a b c : Token}

/-- Two tokens coincide in all fields but the literal. -/
structure SameFrame (a b : Token) : Prop where
  kind : a.kind = b.kind
  lexeme : a.lexeme = b.lexeme
  line : a.line = b.line
  span : a.span = b.span

namespace SameFrame

theorem refl (a : Token) : a.SameFrame a := ⟨rfl, rfl, rfl, rfl⟩

theorem symm (h : a.SameFrame b) : b.SameFrame a :=
  ⟨h.kind.symm, h.lexeme.symm, h.line.symm, h.span.symm⟩

theorem trans (h : a.SameFrame b) (h' : b.SameFrame c) : a.SameFrame c :=
  ⟨h.kind.trans h'.kind, h.lexeme.trans h'.lexeme, h.line.trans h'.line, h.span.trans h'.span⟩

end SameFrame

theorem agrees_iff :
    a.agrees b = true ↔ a.SameFrame b ∧ Literal.Match (·.agrees ·) a.literal b.literal := by
  obtain ⟨kind, lexeme, l, line, span⟩ := a
  obtain ⟨kind', lexeme', m, line', span'⟩ := b
  simp only [agrees, Bool.and_eq_true, beq_iff_eq]
  constructor
  · rintro ⟨⟨⟨⟨kind, lexeme⟩, line⟩, span⟩, literals⟩
    refine ⟨⟨kind, lexeme, line, span⟩, ?_⟩
    match l, m with
    | none, none => exact .missing
    | some (.string s), some (.string t) =>
        rw [beq_iff_eq.mp literals]
        exact .string t
    | some (.number x), some (.number y) => exact .number literals
  · rintro ⟨⟨kind, lexeme, line, span⟩, literals⟩
    refine ⟨⟨⟨⟨kind, lexeme⟩, line⟩, span⟩, ?_⟩
    cases literals with
    | missing => rfl
    | string text => exact beq_self_eq_true text
    | number agree => exact agree

theorem agrees_symm (h : a.agrees b) : b.agrees a := by
  obtain ⟨frame, literals⟩ := agrees_iff.mp h
  exact agrees_iff.mpr ⟨frame.symm, literals.symm Binary64.agrees_symm⟩

theorem agrees_trans (h : a.agrees b) (h' : b.agrees c) : a.agrees c := by
  obtain ⟨frame, literals⟩ := agrees_iff.mp h
  obtain ⟨frame', literals'⟩ := agrees_iff.mp h'
  exact agrees_iff.mpr ⟨frame.trans frame', literals.trans Binary64.agrees_trans literals'⟩

theorem agrees_self_iff :
    a.agrees a = true ↔ ∀ x, a.literal = some (.number x) → x.isNaN = false := by
  rw [agrees_iff, and_iff_right (SameFrame.refl a), Literal.Match.self_iff]
  exact forall₂_congr fun _ _ => Binary64.agrees_self_iff

/-! ## Scanned tokens -/

/-- Whether some source has the token. -/
def IsScanned (t : Token) : Prop := ∃ source, t ∈ (scan source).tokens

theorem IsScanned.isUnsigned (scanned : a.IsScanned) {x : Binary64}
    (literal : a.literal = some (.number x)) : x.IsUnsigned := by
  obtain ⟨source, member⟩ := scanned
  obtain ⟨parts, divided, split⟩ := exists_divided source.toList
  rw [scan_eq_outcome divided split, Part.mem_tokens_iff] at member
  rcases member with ⟨before, l, after, -, yields⟩ | rfl
  · cases yields
    cases l with
    | whole | decimal =>
        cases literal
        exact Binary64.isUnsigned_ofRatio ..
    | mark | word | quoted => cases literal
  · cases literal

theorem IsScanned.agrees_iff_bits (ha : a.IsScanned) (hb : b.IsScanned) :
    a.agrees b = true ↔
      a.SameFrame b ∧ Literal.Match (·.toBits = ·.toBits) a.literal b.literal := by
  rw [agrees_iff]
  refine and_congr_right fun _ => Literal.Match.congr fun x y left right => ?_
  rw [(ha.isUnsigned left).agrees_iff_eq (hb.isUnsigned right), Binary64.toBits_inj]

theorem IsScanned.eq_of_agrees (ha : a.IsScanned) (hb : b.IsScanned) (h : a.agrees b) : a = b := by
  obtain ⟨frame, literals⟩ := (ha.agrees_iff_bits hb).mp h
  have literal : a.literal = b.literal := by
    generalize a.literal = l, b.literal = m at literals
    cases literals with
    | missing => rfl
    | string text => rfl
    | number bits => rw [Binary64.toBits_inj.mp bits]
  obtain ⟨_, _, _, _, _⟩ := a
  obtain ⟨_, _, _, _, _⟩ := b
  exact (mk.injEq ..).mpr ⟨frame.kind, frame.lexeme, literal, frame.line, frame.span⟩

theorem IsScanned.agrees_self (ha : a.IsScanned) : a.agrees a :=
  agrees_self_iff.mpr fun _ literal => (ha.isUnsigned literal).2

end Token

/-! ## Lists of tokens -/

theorem eq_of_isEqv {as bs : List Token} (ha : ∀ a ∈ as, a.IsScanned) (hb : ∀ b ∈ bs, b.IsScanned)
    (agree : as.isEqv bs Token.agrees) : as = bs := by
  induction as generalizing bs with
  | nil =>
      cases bs with
      | nil => rfl
      | cons b bs => cases agree
  | cons a as ih =>
      cases bs with
      | nil => cases agree
      | cons b bs =>
          obtain ⟨first, others⟩ := Bool.and_eq_true_iff.mp agree
          obtain ⟨scanned, ha⟩ := List.forall_mem_cons.mp ha
          obtain ⟨scanned', hb⟩ := List.forall_mem_cons.mp hb
          rw [scanned.eq_of_agrees scanned' first, ih ha hb others]

/-- Equality of tokens is symmetric and transitive, and reflexive but for undefined numbers. On
tokens of any sources it is equality of all fields, of numbers bit by bit. So scanned tokens equal
themselves, and equal lists of them are rendered alike, which the two zeros show to need scanned
tokens. -/
theorem tokens_agree_as_identical :
    (∀ a b : Token, a.agrees b → b.agrees a) ∧
    (∀ a b c : Token, a.agrees b → b.agrees c → a.agrees c) ∧
    (∀ a : Token, a.agrees a = false ↔ ∃ x, a.literal = some (.number x) ∧ x.isNaN) ∧
    (∀ a b : Token, a.IsScanned → b.IsScanned →
      (a.agrees b ↔ a.SameFrame b ∧ Literal.Match (·.toBits = ·.toBits) a.literal b.literal)) ∧
    (∀ a : Token, a.IsScanned → a.agrees a) ∧
    (∀ as bs : List Token, (∀ a ∈ as, a.IsScanned) → (∀ b ∈ bs, b.IsScanned) →
      as.isEqv bs Token.agrees → ∀ format, render format as = render format bs) ∧
    ∃ as bs : List Token, as.isEqv bs Token.agrees ∧
      ∀ format, render format as ≠ render format bs := by
  refine ⟨fun _ _ => Token.agrees_symm, fun _ _ _ => Token.agrees_trans, ?_, ?_, ?_, ?_, ?_⟩
  · intro a
    rw [← Bool.not_eq_true, Token.agrees_self_iff]
    simp
  · exact fun a b ha hb => ha.agrees_iff_bits hb
  · exact fun a ha => ha.agrees_self
  · intro as bs ha hb agree format
    rw [eq_of_isEqv ha hb agree]
  · let zero (negative : Bool) : Token := ⟨.number, "0", some (.number ⟨negative, 0⟩), 1, ⟨0, 1⟩⟩
    refine ⟨[zero false], [zero true], by decide +kernel, ?_⟩
    intro format
    cases format <;> decide +kernel

/-- The two zeros, of which one is scanned. -/
theorem tokens_agree_as_identical_zero :
    let zero (negative : Bool) : Token := ⟨.number, "0.0", some (.number ⟨negative, 0⟩), 1, ⟨0, 3⟩⟩
    (zero false).IsScanned ∧ (zero false).agrees (zero true) ∧ (zero true).agrees (zero false) ∧
      (zero false).agrees (zero false) ∧
      Literal.Match (·.toBits = ·.toBits) (zero false).literal (zero false).literal ∧
      ∀ format, render format [zero false] = render format (scan "0.0").tokens.dropLast := by
  intro zero
  obtain ⟨symm, trans, -, bits, -, lists, -⟩ := tokens_agree_as_identical
  have tokens : (scan "0.0").tokens.dropLast = [zero false] := by decide +kernel
  have scanned : (zero false).IsScanned := by
    refine ⟨"0.0", List.dropLast_subset _ ?_⟩
    rw [tokens]
    exact List.mem_singleton_self _
  have agree : (zero false).agrees (zero true) := by decide +kernel
  have back := symm _ _ agree
  have same := trans _ _ _ agree back
  have each : ∀ t ∈ [zero false], t.IsScanned := List.forall_mem_singleton.mpr scanned
  refine ⟨scanned, agree, back, same, ((bits _ _ scanned scanned).mp same).2, ?_⟩
  rw [tokens]
  exact lists _ _ each each (by decide +kernel)

end LoxLexer
