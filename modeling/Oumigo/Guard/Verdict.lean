import Oumigo.Foundation.Python

/-!
# Intercept points and verdicts

`guard/points.py` and `guard/verdict.py`.
-/

namespace Oumigo

open Python

/-- Where in a request a guard is consulted. -/
inductive InterceptPoint where
  | userInput
  | assembledPrompt
  | toolCall
  | toolResult
  | assistantTurn
  | finalAnswer
  deriving DecidableEq, Repr

namespace InterceptPoint

/-- The label of a point in logs and audit entries. -/
def value : InterceptPoint → String
  | userInput => "user_input"
  | assembledPrompt => "assembled_prompt"
  | toolCall => "tool_call"
  | toolResult => "tool_result"
  | assistantTurn => "assistant_turn"
  | finalAnswer => "final_answer"

/-- `frozenset(InterceptPoint)`. -/
def all : List InterceptPoint :=
  [userInput, assembledPrompt, toolCall, toolResult, assistantTurn, finalAnswer]

theorem mem_all (point : InterceptPoint) : point ∈ all := by cases point <;> decide

end InterceptPoint

/-- `OUTPUT_POINTS`. -/
def outputPoints : List InterceptPoint := [.assistantTurn, .finalAnswer]

/-- The six guard decisions. -/
inductive Decision where
  | allow
  | transform
  | flag
  | skip
  | block
  | stop
  deriving DecidableEq, Repr

/-- The label of a decision in logs and audit entries. -/
def Decision.value : Decision → String
  | allow => "allow"
  | transform => "transform"
  | flag => "flag"
  | skip => "skip"
  | block => "block"
  | stop => "stop"

/-- `_HALTING`. -/
def halting : List Decision := [.skip, .block, .stop]

/-- One guard's decision. -/
structure Verdict where
  decision : Decision
  content : PyVal := .none
  reason : Option String := none

namespace Verdict

def allow : Verdict where
  decision := .allow

def transform (content : PyVal) : Verdict where
  decision := .transform
  content := content

def flag (reason : String) : Verdict where
  decision := .flag
  reason := some reason

def skip (reason : String) : Verdict where
  decision := .skip
  reason := some reason

def block (reason : String) : Verdict where
  decision := .block
  reason := some reason

def stop (reason : String) : Verdict where
  decision := .stop
  reason := some reason

def isAllow (verdict : Verdict) : Bool := verdict.decision = .allow

def isTransform (verdict : Verdict) : Bool := verdict.decision = .transform

def isFlag (verdict : Verdict) : Bool := verdict.decision = .flag

def skips (verdict : Verdict) : Bool := verdict.decision = .skip

def blocks (verdict : Verdict) : Bool := verdict.decision = .block

def stops (verdict : Verdict) : Bool := verdict.decision = .stop

def halts (verdict : Verdict) : Bool := verdict.decision ∈ halting

/-- `verdict.reason or default`. -/
def reasonOr (verdict : Verdict) (default : String) : String :=
  match verdict.reason with
  | some reason => if reason = "" then default else reason
  | none => default

/-- A verdict that is none of allow, flag and transform halts the chain. -/
theorem halts_of_decisive {verdict : Verdict} (noAllow : ¬ verdict.isAllow)
    (noFlag : ¬ verdict.isFlag) (noTransform : ¬ verdict.isTransform) : verdict.halts := by
  unfold isAllow at noAllow
  unfold isFlag at noFlag
  unfold isTransform at noTransform
  unfold halts halting
  cases kind : verdict.decision <;> simp_all

end Verdict

end Oumigo
