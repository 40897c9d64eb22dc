-- SUMMARY: Control sequences: what is left of a text when the sequences that direct a terminal are removed.

/-!
# Control sequences

A control sequence begins with an escape character and directs a terminal instead
of being shown. The reader here follows the phases of such sequences and keeps the
other characters, except controls that are not blank. In this way clap quotes the
command line.
-/

namespace LoxLexer

/-! ## Characters -/

/-- Whether a character is a control that is shown all the same. -/
def isBlankControl (c : Char) : Bool := c = '\t' || c = '\n' || c = '\x0c' || c = '\r'

/-- Whether a character is shown where it is in no sequence. -/
def isShown (c : Char) : Bool := isBlankControl c || (0x20 ≤ c.toNat && c.toNat ≠ 0x7F)

/-- Whether a character lies between two others. -/
def isBetween (low high c : Char) : Bool := low ≤ c && c ≤ high

/-- Whether the encoding of a character has, behind its first byte, the byte that
ends a string of a sequence. -/
def hasTerminator (c : Char) : Bool := (String.utf8EncodeChar c).tail.any (· = 0x9C)

/-! ## Phases -/

/-- Where the reading of a text is. -/
inductive Phase where
  /-- In no sequence. -/
  | text
  /-- Behind an escape. -/
  | escape
  /-- Behind an escape and characters that a last one is still to follow. -/
  | escapeWithin
  /-- In the parameters of a command. -/
  | command
  /-- At the head of a string for a device. -/
  | device
  /-- In the parameters of that head. -/
  | deviceParameters
  /-- Behind the parameters of that head. -/
  | deviceWithin
  /-- In a string that is for a device, or for nobody. -/
  | string
  /-- In a string for the terminal itself, such as a title. -/
  | title
  deriving DecidableEq, Repr

namespace Phase

/-- Whether a character is shown in a phase. Blank controls are obeyed even within
a sequence, as long as it has no string. -/
def shows : Phase → Char → Bool
  | text, c => isShown c
  | escape, c | escapeWithin, c | command, c => isBlankControl c
  | _, _ => false

/-- The phase behind a character that neither cancels a sequence nor begins one. -/
def continued : Phase → Char → Phase
  | text, _ => text
  | escape, c =>
    if c = 'P' then device
    else if c = 'X' || c = '^' || c = '_' then string
    else if c = '[' then command
    else if c = ']' then title
    else if isBetween ' ' '/' c then escapeWithin
    else if isBetween '0' '~' c then text
    else escape
  | escapeWithin, c => if isBetween '0' '~' c then text else escapeWithin
  | command, c => if isBetween '@' '~' c then text else command
  | device, c =>
    if isBetween ' ' '/' c then deviceWithin
    else if isBetween '0' '?' c then deviceParameters
    else if isBetween '@' '~' c then string
    else device
  | deviceParameters, c =>
    if isBetween ' ' '/' c then deviceWithin
    else if isBetween '<' '~' c then string
    else deviceParameters
  | deviceWithin, c => if isBetween '0' '~' c then string else deviceWithin
  | string, c => if hasTerminator c then text else string
  | title, c => if c = '\x07' then text else title

/-- The phase behind a character. -/
def after (p : Phase) (c : Char) : Phase :=
  if c = '\x18' || c = '\x1a' then text
  else if c = '\x1b' then escape
  else p.continued c

end Phase

/-! ## Removing sequences -/

/-- The state of a reader. -/
structure Stripping where
  phase : Phase := .text
  /-- Whether the last character was shown. Then the sequence that it may have
  interrupted is put off until a character comes that is not for showing. -/
  showing : Bool := false
  deriving DecidableEq, Repr

namespace Stripping

/-- Whether a character is shown. -/
def shows (s : Stripping) (c : Char) : Bool := s.phase.shows c || (s.showing && isShown c)

/-- The state behind a character. A character beyond ASCII ends a sequence that was
put off. -/
def after (s : Stripping) (c : Char) : Stripping :=
  if s.showing && isShown c then
    { s with phase := if c.toNat < 0x80 then s.phase else .text }
  else
    ⟨s.phase.after c, s.phase.shows c⟩

/-- What is shown of a text. -/
def shown (s : Stripping) : List Char → List Char
  | [] => []
  | c :: text => if s.shows c then c :: (s.after c).shown text else (s.after c).shown text

end Stripping

/-- A text without the sequences and controls that direct a terminal. -/
def withoutSequences (text : String) : String :=
  String.ofList (Stripping.shown {} text.toList)

end LoxLexer
