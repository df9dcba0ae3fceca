import CaseUnion.Host

/-!
# Asynchronous computations

An asynchronous computation may hand control back to its executor at any point and goes on when
the executor resumes it.  It is a function of what the executor does in between.  A computation
that never pauses is lifted, so the two kinds mix freely.
-/

namespace CaseUnion

/-- A computation that may pause, given what its executor does meanwhile. -/
abbrev Async (m : Type → Type) := ReaderT (m PUnit) m

namespace Async

variable {m : Type → Type} [Monad m] {α : Type}

/-- Hands control to the executor and goes on afterwards. -/
def pause : Async m PUnit := fun meanwhile => meanwhile

/-- Runs a computation to its end, where the executor has nothing else to do. -/
def block (body : Async m α) : m α := body (pure ⟨⟩)

end Async

/-- The host of asynchronous computations.  Casts and predicates never pause. -/
def Host.async {C P : Type} {m : Type → Type} [Monad m] (host : Host C P m) :
    Host C P (Async m) where
  world := liftM host.world
  convert cast v := liftM (host.convert cast v)
  holds p item := liftM (host.holds p item)
  fresh := liftM host.fresh
  emit event := liftM (host.emit event)
  depth := host.depth

end CaseUnion
