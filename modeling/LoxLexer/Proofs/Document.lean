-- SUMMARY: Documents are read as the tokens they were made from, and two scans have the same document only if they have the same tokens.
import LoxLexer.Rendering
import LoxLexer.Proofs.JsonReading
import LoxLexer.Proofs.Unparse

/-!
# Documents can be read back

The document of any tokens is a JSON array of objects with all their fields. Only literals
are not read as what they were: a finite number is read as a decimal that rounds to it, and
other numbers are read as strings. Such a string may also be the text of a string literal, but
in a scan the kind and the lexeme of a token tell its literal, so its document tells all.
-/

namespace LoxLexer

/-- The number above all finite ones. -/
def Binary64.infinity : Binary64 := ⟨false, infinite⟩

/-! ## What is read -/

/-- What a literal, or a missing one, is read as. -/
inductive Literal.IsReadAs : Option Literal → Datum → Prop
  | missing : IsReadAs none .null
  | string (text : String) : IsReadAs (some (string text)) (.string text)
  | finite {x : Binary64} {n : SignedDecimal} (finite : x.isFinite)
    (rounds : ∀ y, n.RoundsTo y ↔ y = x) : IsReadAs (some (number x)) (.number n)
  | infinite {x : Binary64} (place : x.magnitude.toNat = Binary64.infinite) :
    IsReadAs (some (number x)) (.string (if x.negative then "-inf" else "inf"))
  | undefined {x : Binary64} (undefined : x.isNaN) : IsReadAs (some (number x)) (.string "NaN")

/-- A whole number as a datum. -/
def Datum.ofNat (n : Nat) : Datum := .number ⟨false, n, 0⟩

namespace Token

/-- The object of a token, with what its literal is read as. -/
def datum (t : Token) (literal : Datum) : Datum :=
  .object [
    ("kind", .string t.kind.name),
    ("lexeme", .string t.lexeme),
    ("literal", literal),
    ("line", .ofNat t.line),
    ("span", .object [("offset", .ofNat t.span.offset), ("len", .ofNat t.span.length)])]

/-- What a token is read as. -/
def IsReadAs (t : Token) (d : Datum) : Prop :=
  ∃ literal, Literal.IsReadAs t.literal literal ∧ d = t.datum literal

end Token

/-! ## Documents -/

theorem Json.denotes_ofNat (n : Nat) : (Json.ofNat n).Denotes (.ofNat n) := by
  obtain ⟨form, text, value⟩ := exists_form_toDigits n
  rw [ofNat, Datum.ofNat, ← text, ← value]
  exact .number form

namespace Literal

variable {x : Binary64}

theorem toJson_infinite (place : x.magnitude.toNat = Binary64.infinite) :
    (number x).toJson = .string (if x.negative then "-inf" else "inf") := by
  have notNaN : x.isNaN = false := by simp [Binary64.isNaN, place]
  have notFinite : x.isFinite = false := by simp [Binary64.isFinite, place]
  simp only [toJson, Binary64.text, notNaN, notFinite, Bool.false_eq_true, if_false]
  cases x.negative <;> rfl

theorem toJson_undefined (above : Binary64.infinite < x.magnitude.toNat) :
    (number x).toJson = .string "NaN" := by
  have isNaN : x.isNaN = true := decide_eq_true above
  have notFinite : x.isFinite = false := decide_eq_false (Nat.lt_asymm above)
  simp only [toJson, Binary64.text, isNaN, notFinite, Bool.false_eq_true, if_false, if_true]

theorem exists_isReadAs (l : Literal) : ∃ d, l.toJson.Denotes d ∧ IsReadAs (some l) d := by
  cases l with
  | string text => exact ⟨_, .string text, .string text⟩
  | number x =>
      rcases Nat.lt_trichotomy x.magnitude.toNat Binary64.infinite with below | place | above
      · have finite : x.isFinite := decide_eq_true below
        obtain ⟨form, text, rounds⟩ := Binary64.exists_form_document finite
        have json : (number x).toJson = .number form.text := by rw [toJson, if_pos finite, text]
        refine ⟨.number form.value, json ▸ .number form, .finite finite fun y => ⟨?_, ?_⟩⟩
        · exact fun other => other.unique rounds
        · rintro rfl
          exact rounds
      · exact ⟨_, toJson_infinite place ▸ .string _, .infinite place⟩
      · exact ⟨_, toJson_undefined above ▸ .string _, .undefined (decide_eq_true above)⟩

end Literal

namespace Token

theorem denotes_datum (t : Token) {json : Json} {literal : Datum}
    (denotes : json.Denotes literal) :
    (Json.object [
      ("kind", .string t.kind.name),
      ("lexeme", .string t.lexeme),
      ("literal", json),
      ("line", .ofNat t.line),
      ("span", t.span.toJson)]).Denotes (t.datum literal) := by
  have span : t.span.toJson.Denotes
      (.object [("offset", .ofNat t.span.offset), ("len", .ofNat t.span.length)]) :=
    .object (.cons _ (Json.denotes_ofNat _) (.cons _ (Json.denotes_ofNat _) .nil))
  refine .object (.cons _ (.string _) (.cons _ (.string _) (.cons _ denotes ?_)))
  exact .cons _ (Json.denotes_ofNat _) (.cons _ span .nil)

theorem exists_isReadAs (t : Token) : ∃ d, t.toJson.Denotes d ∧ t.IsReadAs d := by
  obtain ⟨kind, lexeme, literal, line, span⟩ := t
  cases literal with
  | none => exact ⟨_, denotes_datum _ .null, .null, .missing, rfl⟩
  | some l =>
      obtain ⟨d, denotes, reads⟩ := l.exists_isReadAs
      exact ⟨_, denotes_datum _ denotes, d, reads, rfl⟩

end Token

/-- The document of tokens is read as their objects, one by one. -/
theorem read?_document (tokens : List Token) :
    ∃ items, Datum.read? (document tokens) = some (.array items) ∧
      List.Forall₂ Token.IsReadAs tokens items := by
  have objects : ∃ items, Json.ItemsDenote (tokens.map Token.toJson) items ∧
      List.Forall₂ Token.IsReadAs tokens items := by
    induction tokens with
    | nil => exact ⟨[], .nil, .nil⟩
    | cons t tokens ih =>
        obtain ⟨d, denotes, reads⟩ := t.exists_isReadAs
        obtain ⟨items, denote, read⟩ := ih
        exact ⟨d :: items, .cons denotes denote, .cons reads read⟩
  obtain ⟨items, denote, read⟩ := objects
  exact ⟨items, Json.read?_pretty (.array denote), read⟩

/-! ## Documents of scans -/

/-- All fields of a token but its literal. -/
def Token.frame (t : Token) : Kind × String × Nat × Span := (t.kind, t.lexeme, t.line, t.span)

theorem Token.IsReadAs.frame_eq {t u : Token} {d : Datum} (ht : t.IsReadAs d) (hu : u.IsReadAs d) :
    t.frame = u.frame := by
  obtain ⟨l, -, rfl⟩ := ht
  obtain ⟨m, -, same⟩ := hu
  simp only [datum, Datum.ofNat, Datum.object.injEq, List.cons.injEq, Prod.mk.injEq,
    Datum.string.injEq, Datum.number.injEq, SignedDecimal.mk.injEq, Decimal.mk.injEq, true_and,
    and_true] at same
  obtain ⟨kind, lexeme, -, line, offset, length⟩ := same
  have span : t.span = u.span := Span.mk.injEq .. ▸ ⟨offset, length⟩
  rw [frame, frame, Kind.name_injective kind, lexeme, line, span]

theorem frames_eq_of_read {ts us : List Token} {items : List Datum}
    (ht : List.Forall₂ Token.IsReadAs ts items) (hu : List.Forall₂ Token.IsReadAs us items) :
    ts.map Token.frame = us.map Token.frame := by
  induction ht generalizing us with
  | nil =>
      cases hu
      rfl
  | cons reads _ ih =>
      cases hu with
      | cons reads' rest => rw [List.map_cons, List.map_cons, reads.frame_eq reads', ih rest]

/-- In a scan the other fields tell the literals. -/
theorem tokens_eq_of_frames_eq {s t : String}
    (same : (scan s).tokens.map Token.frame = (scan t).tokens.map Token.frame) :
    (scan s).tokens = (scan t).tokens := by
  obtain ⟨ls, contents_s⟩ := exists_lexemes_of_scan s
  obtain ⟨ms, contents_t⟩ := exists_lexemes_of_scan t
  have lexemes : (scan s).tokens.map Token.lexeme = (scan t).tokens.map Token.lexeme := by
    have spelt := congrArg (List.map fun frame => frame.2.1) same
    rwa [List.map_map, List.map_map] at spelt
  rw [Token.map_lexeme contents_s, Token.map_lexeme contents_t, List.append_cancel_right_eq]
    at lexemes
  obtain rfl : ls = ms := (List.map_inj_right fun _ _ => Lexeme.spelling_injective).mp lexemes
  have contents := contents_s.trans contents_t.symm
  have both := congrArg₂ List.zip contents same
  rw [List.zip_map', List.zip_map'] at both
  refine (List.map_inj_right ?_).mp both
  rintro ⟨_, _, _, _, _⟩ ⟨_, _, _, _, _⟩ eq
  simp only [Token.content, Token.frame, Prod.mk.injEq] at eq
  simp [eq]

/-- Any document is read as the tokens it was made from. The documents of two scans are the
same exactly if all their tokens are, although infinity and the text of its name look alike. -/
theorem documents_read_back :
    (∀ tokens : List Token, ∃ items,
      Datum.read? (render .json tokens).toList = some (.array items) ∧
        List.Forall₂ Token.IsReadAs tokens items) ∧
    (∀ s t : String, render .json (scan s).tokens = render .json (scan t).tokens ↔
      (scan s).tokens = (scan t).tokens) ∧
    (Literal.number Binary64.infinity).toJson = (Literal.string "inf").toJson := by
  refine ⟨?_, ?_, ?_⟩
  · intro tokens
    rw [render, String.toList_ofList]
    exact read?_document tokens
  · intro s t
    constructor
    · intro same
      obtain ⟨items, read_s, reads_s⟩ := read?_document (scan s).tokens
      obtain ⟨items', read_t, reads_t⟩ := read?_document (scan t).tokens
      have documents : document (scan s).tokens = document (scan t).tokens :=
        String.ofList_injective same
      rw [documents, read_t, Option.some.injEq, Datum.array.injEq] at read_s
      subst read_s
      exact tokens_eq_of_frames_eq (frames_eq_of_read reads_s reads_t)
    · intro same
      rw [same]
  · exact Literal.toJson_infinite (by decide)

end LoxLexer
