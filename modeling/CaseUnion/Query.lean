import CaseUnion.Handle

/-!
# Queries

A query tests a union against one case and runs its block only on a match.
-/

namespace CaseUnion.Union

variable {C P : Type} {m : Type → Type} [Monad m] (host : Host C P m) (u : Union) {R : Type}

/-- What a block makes of the item, if the union satisfies the case. -/
def letWhen (c : Case C P) (block : Item → m R) : m (Option R) := do
  match ← c.unwrap host u with
  | some item => return some (← block item)
  | none => return none

/-- Runs a block on the item for what it does, and returns the union. -/
def alsoWhen (c : Case C P) (block : Item → m Unit) : m Union := do
  match ← c.unwrap host u with
  | some item => block item
  | none => pure ()
  return u

/-- The item, if the union satisfies the case and a predicate holds of the item. -/
def takeIfWhen (c : Case C P) (predicate : Item → m Bool) : m (Option Item) := do
  match ← c.unwrap host u with
  | some item => if ← predicate item then return some item else return none
  | none => return none

/-- The item, if the union satisfies the case and a predicate does not hold of the item. -/
def takeUnlessWhen (c : Case C P) (predicate : Item → m Bool) : m (Option Item) :=
  u.takeIfWhen host c fun item => do return !(← predicate item)

end CaseUnion.Union
