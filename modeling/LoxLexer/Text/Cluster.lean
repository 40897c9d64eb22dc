-- SUMMARY: Clusters: the characters of a text grouped as its readers perceive them.
import LoxLexer.Text.BreakClass

/-!
# Clusters

A text is divided into extended grapheme clusters from left to right. Whether a
character joins the cluster before it depends on its class and on a bounded summary
of what came before, so that one pass suffices. Nothing of the text is lost. These
are the clusters that rustyline edits.
-/

namespace LoxLexer

namespace BreakClass

/-- Whether characters of this class make clusters of their own. A carriage return
and a line feed together are one cluster. -/
def isSeparate : BreakClass → Bool
  | carriageReturn | lineFeed | control => true
  | _ => false

/-- Whether characters of this class belong to whatever they follow. -/
def isAttached : BreakClass → Bool
  | mark | linker | nonJoiner | joiner | spacing => true
  | _ => false

/-- Whether the second class continues a Korean syllable that ends in the first. -/
def continuesSyllable : BreakClass → BreakClass → Bool
  | leading, leading | leading, vowel | leading, openSyllable | leading, closedSyllable => true
  | openSyllable, vowel | openSyllable, trailing => true
  | vowel, vowel | vowel, trailing => true
  | closedSyllable, trailing | trailing, trailing => true
  | _, _ => false

end BreakClass

/-! ## What came before -/

/-- How much of a joined pictograph has been read. -/
inductive Picture where
  | absent
  /-- A pictograph and marks. -/
  | begun
  /-- A pictograph, marks, and a joiner. -/
  | joined
  deriving DecidableEq, Repr

namespace Picture

def after (p : Picture) : BreakClass → Picture
  | .pictograph => begun
  | .mark | .linker | .nonJoiner => if p = begun then begun else absent
  | .joiner => if p = begun then joined else absent
  | _ => absent

end Picture

/-- How much of a conjunct of consonants has been read. -/
inductive Conjunct where
  | absent
  /-- A consonant and marks. -/
  | begun
  /-- A consonant and marks, a linker among them. -/
  | linked
  deriving DecidableEq, Repr

namespace Conjunct

def after (j : Conjunct) : BreakClass → Conjunct
  | .consonant => begun
  | .linker => if j = absent then absent else linked
  | .mark | .joiner => j
  | _ => absent

end Conjunct

/-- What has to be known of a text to tell whether the next character joins its last
cluster. -/
structure Context where
  /-- The class of the last character. -/
  last : BreakClass
  /-- Whether the text ends in an odd number of halves of flags. -/
  halfFlag : Bool
  picture : Picture
  conjunct : Conjunct
  deriving DecidableEq, Repr

namespace Context

/-- The context of the first character: as behind a control, nothing is joined. -/
def start : Context := ⟨.control, false, .absent, .absent⟩

/-- The context behind one more character. -/
def after (x : Context) (k : BreakClass) : Context where
  last := k
  halfFlag := k = .regional && !x.halfFlag
  picture := x.picture.after k
  conjunct := x.conjunct.after k

/-- Whether a character of this class joins the cluster before it. -/
def joins (x : Context) (k : BreakClass) : Bool :=
  if x.last.isSeparate || k.isSeparate then
    x.last = .carriageReturn && k = .lineFeed
  else
    k.isAttached || x.last = .prepended || x.last.continuesSyllable k ||
      match k with
      | .consonant => x.conjunct = .linked
      | .pictograph => x.picture = .joined
      | .regional => x.halfFlag
      | _ => false

end Context

/-! ## Clusters of a text -/

/-- Divides a text into the rest of the cluster that precedes it and the clusters
that follow. -/
def splitCluster (x : Context) : List Char → List Char × List (List Char)
  | [] => ([], [])
  | c :: text =>
    let k := BreakClass.ofChar c
    let (own, later) := splitCluster (x.after k) text
    if x.joins k then (c :: own, later) else ([], (c :: own) :: later)

/-- The clusters of a text. -/
def clusters (text : List Char) : List (List Char) := (splitCluster .start text).2

theorem splitCluster_append (x : Context) (text : List Char) :
    (splitCluster x text).1 ++ (splitCluster x text).2.flatten = text := by
  induction text generalizing x with
  | nil => rfl
  | cons c text ih =>
    have := ih (x.after (.ofChar c))
    simp only [splitCluster]
    split <;> simpa using this

@[simp] theorem Context.joins_start (k : BreakClass) : start.joins k = false := by
  cases k <;> rfl

theorem splitCluster_start (text : List Char) : (splitCluster .start text).1 = [] := by
  cases text <;> simp [splitCluster]

/-- The clusters of a text, one after another, are the text. -/
theorem flatten_clusters (text : List Char) : (clusters text).flatten = text := by
  simpa [clusters, splitCluster_start] using splitCluster_append .start text

end LoxLexer
