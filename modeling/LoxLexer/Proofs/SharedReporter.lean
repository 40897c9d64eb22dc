-- SUMMARY: One reporter for many scans: each yields what it yields alone, and the reporter is told the faults of all of them in order.
import LoxLexer.Session
import LoxLexer.Proofs.Reporting

/-!
# One reporter for many scans

A reporter may serve any number of scans, of whole sources or of lines that are rendered at once.
The only thing that a scan leaves for the next one is the state of the reporter, and a scan never
looks at it.
-/

namespace LoxLexer

variable {σ : Type} (reporter : Reporter σ)

/-! ## Requests -/

/-- A scan that is asked for. -/
inductive Request where
  /-- The tokens and faults of a source. -/
  | outcome (source : String)
  /-- The tokens of a source, rendered. -/
  | output (format : Format) (source : String)

/-- What is handed back for a request. -/
inductive Answer where
  | outcome (o : Outcome)
  | output (text : String)

namespace Request

def source : Request → String
  | outcome source | output _ source => source

/-- The answer to a request if there are no others and nobody is told of faults. -/
def alone : Request → Answer
  | outcome source => .outcome (scan source)
  | output format source => .output (render format (scan source).tokens)

/-- The faults of the source. -/
def faults (r : Request) : List Fault := (scan r.source).faults

/-- Answers one request. -/
def answer (state : σ) : Request → Answer × σ
  | outcome source =>
    let (o, state) := scanWith reporter state source
    (.outcome o, state)
  | output format source =>
    let (text, state) := scanLine reporter format state source
    (.output text, state)

/-- Answers requests one after the other with the same reporter. -/
def answerAll (state : σ) : List Request → List Answer × σ
  | [] => ([], state)
  | r :: rest =>
    let (first, state) := r.answer reporter state
    let (others, state) := answerAll state rest
    (first :: others, state)

end Request

/-! ## Telling faults -/

/-- Tells a reporter of a fault: its line, no location, and its message. -/
def Reporter.tell (state : σ) (f : Fault) : σ := reporter.report state ⟨f.line, "", f.message⟩

theorem Reporter.foldl_collecting (faults : List Fault) (lines : Array String) :
    (faults.foldl collecting.tell lines).toList = lines.toList ++
      faults.map fun f => "[line " ++ toString f.line ++ "] Error : " ++ f.message := by
  induction faults generalizing lines with
  | nil => simp
  | cons f faults ih =>
      have line : (collecting.tell lines f).toList =
          lines.toList ++ ["[line " ++ toString f.line ++ "] Error : " ++ f.message] := by
        rw [← f.text_diagnostic]
        exact Array.toList_push
      rw [List.foldl_cons, ih, line, List.append_assoc]
      rfl

namespace Request

/-- An answer does not depend on the state, and the reporter is told the faults of this source. -/
theorem answer_eq (state : σ) (r : Request) :
    r.answer reporter state = (r.alone, r.faults.foldl reporter.tell state) := by
  have told (source : String) : ((scan source).faults.map Fault.diagnostic).foldl reporter.report
      state = (scan source).faults.foldl reporter.tell state := List.foldl_map
  cases r with
  | outcome source =>
      rw [answer, scanWith_eq, told]
      rfl
  | output format source =>
      rw [answer, scanLine, scanWith_eq, told]
      rfl

theorem answerAll_eq (state : σ) (requests : List Request) :
    answerAll reporter state requests =
      (requests.map alone, (requests.flatMap faults).foldl reporter.tell state) := by
  induction requests generalizing state with
  | nil => rfl
  | cons r rest ih =>
      rw [answerAll, answer_eq]
      dsimp only
      rw [ih, List.map_cons, List.flatMap_cons, List.foldl_append]

end Request

/-- Whatever the reporter and its state, each of many requests has the answer that it has alone, and
in the end the reporter has been told every fault of every source once, in order. So the lines that
a collecting reporter keeps only grow, by one line for each fault of the source at hand. -/
theorem answers_alone :
    (∀ {σ : Type} (reporter : Reporter σ) (state : σ) (requests : List Request),
      (Request.answerAll reporter state requests).1 = requests.map Request.alone ∧
        (Request.answerAll reporter state requests).2 =
          (requests.flatMap Request.faults).foldl
            (fun state f => reporter.report state ⟨f.line, "", f.message⟩) state) ∧
    ∀ (lines : Array String) (earlier : List Request) (r : Request),
      (Request.answerAll .collecting lines (earlier ++ [r])).2.toList =
        (Request.answerAll .collecting lines earlier).2.toList ++
          r.faults.map fun f => "[line " ++ toString f.line ++ "] Error : " ++ f.message := by
  constructor
  · intro σ reporter state requests
    rw [Request.answerAll_eq]
    exact ⟨rfl, rfl⟩
  · intro lines earlier r
    rw [Request.answerAll_eq, Request.answerAll_eq, List.flatMap_append, List.foldl_append,
      List.flatMap_singleton]
    exact Reporter.foldl_collecting _ _

example :
    (Request.answerAll .collecting #[] [.output .text "@", .outcome "1\n\"a"]).2 =
      #["[line 1] Error : Unexpected Character @", "[line 2] Error : Unterminated Text"] := by
  decide +kernel

end LoxLexer
