/-!
# Optional results

A match that may fail gives an `Option`.  This module adds what the standard library has no word
for: asking for the value with an error when there is none, keeping the value under a condition,
and the order in which a present value comes before an absent one.
-/

namespace CaseUnion.Optional

variable {α : Type}

/-- Raised where a value is asked for and there is none. -/
inductive EmptyError where
  | mk
deriving DecidableEq, Repr

/-- The text of the error. -/
def EmptyError.message (_ : EmptyError) : String := "no value present"

/-- The value, or an error if there is none. -/
def getOrThrow : Option α → Except EmptyError α
  | some x => .ok x
  | none => .error .mk

/-- The value if a predicate holds of it. -/
def takeIf (predicate : α → Bool) (x : Option α) : Option α := x.filter predicate

/-- The value if a predicate does not hold of it. -/
def takeUnless (predicate : α → Bool) (x : Option α) : Option α := x.filter fun a => !predicate a

/-- The order of optional values: by value where both are present, and a missing value last. -/
def compareBy (compare : α → α → Ordering) : Option α → Option α → Ordering
  | some x, some y => compare x y
  | some _, none => .lt
  | none, some _ => .gt
  | none, none => .eq

/-- Optional values in order; equal ones keep their places. -/
def sortBy (compare : α → α → Ordering) (xs : List (Option α)) : List (Option α) :=
  xs.mergeSort fun x y => (compareBy compare x y).isLE

/-- The last optional value in order, none if there is no value at all. -/
def maxBy (compare : α → α → Ordering) (xs : List (Option α)) : Option α :=
  (sortBy compare xs).getLast?.join

end CaseUnion.Optional
