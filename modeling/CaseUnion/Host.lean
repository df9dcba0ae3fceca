import CaseUnion.Event

/-!
# Hosts

What a case recognises depends on custom casts and predicates, and those belong to whoever uses
the library.  A host runs them, along with the casts and checks that the library knows itself.  It
works in a monad of its own, so that casts and checks may read and change a state, be recorded, or
be plain functions.  It also supplies the world that is current, new blocks for the values that are
made, and an observer.

`depth` bounds how deep a walk descends into nested registries.  A world in which no registry
contains itself needs no more than the number of its registries.
-/

namespace CaseUnion

/-- The surroundings in which values are discriminated. -/
structure Host (C P : Type) (m : Type → Type) where
  /-- The world as it is now. -/
  world : m (World C P)
  /-- What a cast makes of a terminal value. -/
  convert : Cast C → Value → m (Option Item)
  /-- Whether an item passes a check. -/
  holds : Check P → Item → m Bool
  /-- A block that nothing has used yet. -/
  fresh : m Nat
  /-- Tells the observer of an event. -/
  emit : Event → m Unit
  /-- How deep a walk may descend. -/
  depth : Nat

/-- What custom casts and predicates mean where they are plain functions. -/
structure Meaning (C P : Type) where
  /-- What a custom cast makes of a terminal value. -/
  convert : C → Value → Option Item
  /-- Whether a predicate holds of an item. -/
  holds : P → Item → Bool

namespace Meaning

variable {C P : Type} (μ : Meaning C P)

/-- What a cast makes of a terminal value. -/
def cast : Cast C → Value → Option Item
  | .content type, v => v.downcast type
  | .custom c, v => μ.convert c v

/-- Whether an item passes a check. -/
def check : Check P → Item → Bool
  | .equals expected, item => item.same expected
  | .custom p, item => μ.holds p item

end Meaning

namespace Host

variable {C P : Type} {m : Type → Type}

/-- A world at rest, where casts and predicates are plain functions and nobody observes. -/
def ofWorld (w : World C P) (μ : Meaning C P) (block : Nat) : Host C P Id where
  world := w
  convert := μ.cast
  holds := μ.check
  fresh := block
  emit _ := ()
  depth := w.size

variable [Monad m] (host : Host C P m)

/-- The registry of a number, as it is now. -/
def registry (id : RegistryId) : m (Registry C P) := do
  return (← host.world).registry id

/-- Stores an item in a new block. -/
def store (item : Item) : m Value := do
  let block ← host.fresh
  return Value.ofItem (← host.world).wrappers block item

/-- Whether an item passes a check.  Without a check everything passes. -/
def passes (check : Option (Check P)) (item : Item) : m Bool :=
  match check with
  | none => pure true
  | some check => host.holds check item

/-- Whether an item passes a guard. -/
def accepts (guard : Option P) (item : Item) : m Bool := host.passes (guard.map .custom) item

/-- The item, if there is one and it passes a check. -/
def checked (check : Option (Check P)) : Option Item → m (Option Item)
  | none => pure none
  | some item => do
    if ← host.passes check item then return some item else return none

end Host

end CaseUnion
