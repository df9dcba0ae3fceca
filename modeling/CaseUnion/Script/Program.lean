import CaseUnion.Script.Steps

/-!
# Running scripts

The evaluators of the languages call each other.  `evaluators` ties them together, with a bound on
how deep the calls go; a script that needs more has a recursion without an end.
-/

namespace CaseUnion.Script

/-- The evaluators, with a bound on how deep they call each other. -/
def evaluators : Nat → Evaluators
  | 0 => {
      expr := fun _ _ => throw .exhausted
      holds := fun _ _ => throw .exhausted
      step := fun _ => throw .exhausted
      morphStep := fun _ _ => throw .exhausted
      depth := 0 }
  | depth + 1 => {
      expr := fun scope e =>
        let inner := evaluators depth
        e.eval inner (fun scope form => form.run inner scope) scope
      holds := fun p item => p.holds (evaluators depth) item
      step := fun step => step.run (evaluators depth)
      morphStep := fun step => step.run (evaluators depth)
      depth := depth + 1 }

/-- The bound for whole scripts. -/
def depthLimit : Nat := 100000

/-- A script, and whether its observer is heard. -/
structure Program where
  /-- What it does. -/
  steps : List Step
  /-- Whether the answers hold what the observer was told. -/
  isTraced : Bool := false

/-- What came of a step. -/
structure Answer where
  /-- What the step answered. -/
  result : Result
  /-- What was done during it. -/
  log : List LogEntry
  /-- What the observer was told, a line for each event. -/
  trace : List String

/-- Runs a step and takes what was noted during it. -/
def Step.answer (isTraced : Bool) (step : Step) : Run Answer := do
  let result ← (evaluators depthLimit).step step
  let s ← get
  set { s with log := #[], events := #[] }
  let trace := s.events.toList.map (Event.text s.setting.home)
  return ⟨result, s.log.toList, if isTraced then trace else []⟩

/-- The answers of a script, step by step. -/
def Program.run (setting : Setting) (program : Program) : Except Fault (List Answer) :=
  (program.steps.mapM (Step.answer program.isTraced)).run' { setting }

end CaseUnion.Script
