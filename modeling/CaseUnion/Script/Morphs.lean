import CaseUnion.Script.Passes

/-!
# Queries and morphs of a script

Each step of a morph is noted once it is done, with the current union after it.  So the steps of a
nested morph are noted before the step they are nested in.
-/

namespace CaseUnion.Script

variable (ev : Evaluators)

/-- What a query answers. -/
def QueryForm.run (u : Union) (q : QueryForm) : Run Result :=
  match q with
  | .letWhen name e => do
    let c ← Run.case name
    return .optional (← u.letWhen (host ev) c fun item => ev.expr ⟨some item, some u⟩ e)
  | .alsoWhen name e => do
    let c ← Run.case name
    let _ ← u.alsoWhen (host ev) c fun item => do
      Run.note (.say (← ev.expr ⟨some item, some u⟩ e))
    return .receiver
  | .takeIfWhen name p => do
    let c ← Run.case name
    return .optional (← u.takeIfWhen (host ev) c (ev.holds p))
  | .takeUnlessWhen name p => do
    let c ← Run.case name
    return .optional (← u.takeUnlessWhen (host ev) c (ev.holds p))

/-- Does the steps of a morph in order. -/
def runMorph (steps : List MorphStep) : Morph Run PUnit := steps.forM ev.morphStep

/-- Does one step of a morph, and gives what it answers. -/
def MorphStep.act (step : MorphStep) : Morph Run (Option Result) := fun u => do
  match step with
  | .changeWhen name e =>
    let c ← Run.case name
    let block item := do Run.asUnion (← ev.expr ⟨some item, some u⟩ e)
    let (_, u) ← Morph.changeWhen (host ev) c block u
    return (none, u)
  | .changeByMorph name steps e =>
    let c ← Run.case name
    let block : Morph Run Union := fun child => do
      let (_, child) ← runMorph ev steps child
      return (← Run.asUnion (← ev.expr ⟨some (.union child), some child⟩ e), child)
    let (_, u) ← Morph.changeByMorph (host ev) c block u
    return (none, u)
  | .changeByMorphingCase name steps =>
    let c ← Run.case name
    let (_, u) ← Morph.changeByMorphingCase (host ev) c (runMorph ev steps) u
    return (none, u)
  | .setCurrent e =>
    let next ← Run.asUnion (← ev.expr ⟨none, some u⟩ e)
    let (_, u) ← Morph.setCurrent next u
    return (none, u)
  | .query q => return (some (← q.run ev u), u)
  | .morphSelf steps => return (some (.union (some (← u.morphSelf (runMorph ev steps)))), u)
  | .pass form => return (some (.pass (← form.run ev ⟨none, some u⟩)), u)

/-- Does one step of a morph and notes it. -/
def MorphStep.run (step : MorphStep) : Morph Run PUnit := fun u => do
  let (out, u) ← step.act ev u
  Run.note (.morphed step u out)
  return (⟨⟩, u)

/-- The item of a whole morph: its steps, and an expression over the union it ends with. -/
def runMorphWith (steps : List MorphStep) (result : Expr) : Morph Run Item := fun u => do
  let (_, u) ← runMorph ev steps u
  return (← ev.expr ⟨none, some u⟩ result, u)

/-- The morph of a union, by the asynchronous entry point if asked for. -/
def morphOf (u : Union) (steps : List MorphStep) (result : Expr) (isAsync : Bool) : Run Item :=
  if isAsync then
    (u.morphAsync fun u => do
      Async.pause
      liftM (runMorphWith ev steps result u)).block
  else
    u.morph (runMorphWith ev steps result)

end CaseUnion.Script
