import CaseUnion.Async
import CaseUnion.Flow
import CaseUnion.Handle

/-!
# Passes

A pass runs clauses in order over a union.  Each clause tests the pass's *current* union against
one case, and against one literal if it has one, and runs its body on the item.  What the body
returns decides what happens.

* An accept clause's value is the result of the pass, and the pass is broken.
* A change clause's value becomes the current union.
* An execute clause's value is nothing.
* A body that skips leaves the pass as it is, and one that halts breaks it.

Once the pass is broken these three do nothing and test nothing.  An otherwise clause is not bound
by that.  It makes the result from the current union whenever there is none yet, also in a pass
that was broken without a result.

The four entry points differ in what they make of the state at the end.  `mapOr` falls back on a
default, `map` is an error without a result, `trans` falls back on the union it started from, and
`alter` always returns that union.  The asynchronous entry points are the same over `Async`.
-/

namespace CaseUnion

/-- The state of a pass with results in `R`. -/
structure PassState (R : Type) where
  /-- The union that clauses test. -/
  current : Union
  /-- The result, once there is one. -/
  result : Option R := none
  /-- Whether clauses are passed over. -/
  broken : Bool := false
  /-- Whether an otherwise clause was met. -/
  otherwiseSeen : Bool := false

/-- A clause of a pass with results in `R`.  A body sees the current union and the item. -/
inductive Clause (C P : Type) (m : Type → Type) (R : Type) where
  /-- Makes the result of the pass. -/
  | accept (case : Case C P) (only : Option Item) (body : Union → Item → m (Flow R))
  /-- Replaces the current union. -/
  | change (case : Case C P) (only : Option Item) (body : Union → Item → m (Flow Union))
  /-- Runs its body for what it does. -/
  | execute (case : Case C P) (only : Option Item) (body : Union → Item → m (Flow Unit))
  /-- Makes the result if there is none yet. -/
  | otherwise (body : Union → m R)

/-- The entry points. -/
inductive PassKind where
  | mapOr
  | map
  | trans
  | alter
deriving DecidableEq, Repr

/-- The name of an entry point. -/
def PassKind.text : PassKind → String
  | mapOr => "map_or"
  | map => "map"
  | trans => "trans"
  | alter => "alter"

/-- Raised by `Pass.map` when the pass ends without a result. -/
inductive MissingOtherwise where
  | mk
deriving DecidableEq, Repr

/-- The text of the error. -/
def MissingOtherwise.message (_ : MissingOtherwise) : String := "missing otherwise clause in map"

namespace PassState

variable {R T : Type}

/-- Records the result and breaks the pass. -/
def finishWith (s : PassState R) (result : R) : PassState R :=
  { s with result := some result, broken := true }

/-- Makes a union the current one. -/
def replace (s : PassState R) (u : Union) : PassState R := { s with current := u }

/-- Applies what a body returned, where `use` says what becomes of a value. -/
def settle (s : PassState R) (flow : Flow T) (use : PassState R → T → PassState R) : PassState R :=
  match flow with
  | .value x => use s x
  | .skip => s
  | .halt => { s with broken := true }

end PassState

namespace Pass

variable {C P : Type} {m : Type → Type} [Monad m] (host : Host C P m) {R : Type}

/-! ## Clauses -/

/-- The item a clause fires with: none in a broken pass, and only the literal if it has one. -/
def firing (s : PassState R) (c : Case C P) (only : Option Item) : m (Option Item) :=
  if s.broken then pure none
  else do return (← c.unwrap host s.current).filter fun item => only.all item.same

/-- Runs one clause. -/
def run (clause : Clause C P m R) (s : PassState R) : m (PassState R) :=
  match clause with
  | .accept c only body => do
    match ← firing host s c only with
    | some item => return s.settle (← body s.current item) .finishWith
    | none => return s
  | .change c only body => do
    match ← firing host s c only with
    | some item => return s.settle (← body s.current item) .replace
    | none => return s
  | .execute c only body => do
    match ← firing host s c only with
    | some item => return s.settle (← body s.current item) fun s _ => s
    | none => return s
  | .otherwise body => do
    let s := { s with otherwiseSeen := true }
    if s.result.isSome then return s else return s.finishWith (← body s.current)

/-- Runs clauses one after another. -/
def runAll (clauses : List (Clause C P m R)) (s : PassState R) : m (PassState R) :=
  clauses.foldlM (fun s clause => run host clause s) s

/-! ## Entry points -/

/-- Ends a pass and reads off the result. -/
def finish (kind : PassKind) (s : PassState R) : m (Option R) := do
  host.emit (.passFinished kind.text s.result.isSome s.broken s.otherwiseSeen)
  return s.result

/-- The result of a pass, or a default. -/
def mapOr (u : Union) (default : R) (clauses : PassState R → m (PassState R)) : m R := do
  let s ← clauses { current := u }
  return (← finish host .mapOr s).getD default

/-- The result of a pass, or an error. -/
def map (u : Union) (clauses : PassState R → m (PassState R)) :
    m (Except MissingOtherwise R) := do
  let s ← clauses { current := u }
  match ← finish host .map s with
  | some result => return .ok result
  | none =>
    host.emit (.unresolvedMap s.otherwiseSeen)
    return .error .mk

/-- The union a pass results in, or the one it started from. -/
def trans (u : Union) (clauses : PassState Union → m (PassState Union)) : m Union := do
  let s ← clauses { current := u }
  return (← finish host .trans s).getD u

/-- Runs a pass for what its bodies do and returns the union it started from. -/
def alter (u : Union) (clauses : PassState Unit → m (PassState Unit)) : m Union := do
  let s ← clauses { current := u }
  let _ ← finish host .alter s
  return u

/-- `mapOr` with clauses that may pause. -/
def mapOrAsync (u : Union) (default : R) (clauses : PassState R → Async m (PassState R)) :
    Async m R :=
  mapOr host.async u default clauses

/-- `map` with clauses that may pause. -/
def mapAsync (u : Union) (clauses : PassState R → Async m (PassState R)) :
    Async m (Except MissingOtherwise R) :=
  map host.async u clauses

/-- `trans` with clauses that may pause. -/
def transAsync (u : Union) (clauses : PassState Union → Async m (PassState Union)) :
    Async m Union :=
  trans host.async u clauses

/-- `alter` with clauses that may pause. -/
def alterAsync (u : Union) (clauses : PassState Unit → Async m (PassState Unit)) :
    Async m Union :=
  alter host.async u clauses

end Pass

end CaseUnion
