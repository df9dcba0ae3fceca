/-!
# Flows

A flow is what the body of a clause tells the pass that ran it: a value, or that the clause is
given up, or that the whole pass is.
-/

namespace CaseUnion

/-- What the body of a clause tells its pass. -/
inductive Flow (R : Type) where
  /-- The body made a value. -/
  | value (result : R)
  /-- The clause is given up and the pass goes on. -/
  | skip
  /-- The pass is given up and keeps what it has. -/
  | halt
deriving DecidableEq, Repr

namespace Flow

variable {R S : Type}

/-- The value that says no more than that the body went through. -/
def done : Flow Unit := value ()

/-- Whether the pass is given up. -/
def isHalt : Flow R → Bool
  | halt => true
  | value _ | skip => false

/-- The value, if the body made one. -/
def value? : Flow R → Option R
  | value result => some result
  | skip | halt => none

/-- Applies a function to the value and leaves the other flows. -/
def map (f : R → S) : Flow R → Flow S
  | value result => value (f result)
  | skip => skip
  | halt => halt

/-- Equality of flows, given that of values. -/
def same (eq : R → R → Bool) : Flow R → Flow R → Bool
  | value x, value y => eq x y
  | skip, skip | halt, halt => true
  | _, _ => false

end Flow

end CaseUnion
