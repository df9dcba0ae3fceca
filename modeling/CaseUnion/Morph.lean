import CaseUnion.Async
import CaseUnion.Query

/-!
# Morphs

A morph is a computation with a current union.  It replaces the current union, or descends into a
nested case and works on the child union there.
-/

namespace CaseUnion

/-- A computation with a current union. -/
abbrev Morph (m : Type → Type) := StateT Union m

namespace Morph

variable {C P : Type} {m : Type → Type} [Monad m] (host : Host C P m) {R : Type}

/-- The current union. -/
def current : Morph m Union := get

/-- Makes a union the current one. -/
def setCurrent (u : Union) : Morph m Unit := set u

/-- The child union that a nested case sees in a union. -/
def child? (c : Case C P) (u : Union) : m (Option Union) := do
  return (← c.unwrap host u).bind Item.union?

/-- Replaces the current union by what a block makes of the item, if the union satisfies the
case. -/
def changeWhen (c : Case C P) (block : Item → m Union) : Morph m Unit := fun u => do
  match ← c.unwrap host u with
  | some item => return ((), ← block item)
  | none => return ((), u)

/-- Replaces the current union by the result of a morph of the child union, if the union satisfies
the nested case. -/
def changeByMorph (c : Case C P) (block : Morph m Union) : Morph m Unit := fun u => do
  match ← child? host c u with
  | some child => return ((), ← block.run' child)
  | none => return ((), u)

/-- Morphs the child union and puts it back under the nested case, if the union satisfies the
case.  If the case refuses the morphed child, the current union stays. -/
def changeByMorphingCase (c : Case C P) (block : Morph m Unit) : Morph m Unit := fun u => do
  match ← child? host c u with
  | none => return ((), u)
  | some child =>
    let (_, morphed) ← block.run child
    match ← c.rewrap host morphed with
    | some parent => return ((), parent)
    | none =>
      host.emit (.morphRefused c.name)
      return ((), u)

end Morph

namespace Union

variable {m : Type → Type} [Monad m] {R : Type}

/-- The result of a morph that begins with a union. -/
def morph (u : Union) (block : Morph m R) : m R := block.run' u

/-- The union a morph ends with. -/
def morphSelf (u : Union) (block : Morph m Unit) : m Union := do
  return (← block.run u).2

/-- The result of a morph that may pause. -/
def morphAsync (u : Union) (block : Morph (Async m) R) : Async m R := u.morph block

end Union

end CaseUnion
