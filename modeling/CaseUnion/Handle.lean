import CaseUnion.Discrimination

/-!
# Handles

A case is its own handle.  `cast` tests a value against that case alone, with the layers of the
value stripped and a walk of its own; the order of declaration plays no part, so a value may
satisfy several cases of a registry.  `wrap` builds a union of the case.

What a handle wraps depends on its recogniser.  A literal case has one union, that of its literal.
A case of a type wraps the items of that type that pass its guard.  A case by a custom cast wraps
the terminal values that it recognises, not the items it turns them into.  A nested case wraps the
child unions that pass its guard, without asking the nested registry.
-/

namespace CaseUnion.Case

variable {C P : Type} {m : Type → Type} [Monad m] (host : Host C P m) (c : Case C P)

/-- The item the case sees in a value, with the layers of the value stripped. -/
def cast (v : Value) : m (Option Item) :=
  host.walk v fun ask => host.see ask v.terminal c.recogniser

/-- The item the case sees in a union. -/
def unwrap (u : Union) : m (Option Item) := c.cast host u.terminal

/-- Whether a union satisfies the case. -/
def accepts (u : Union) : m Bool := do
  return (← c.unwrap host u).isSome

/-- Wraps the terminal value of a value, if a custom cast recognises it. -/
def wrapValue (v : Value) : m (Option Union) :=
  match c.recogniser with
  | .byCast .. => do
    if (← c.cast host v.terminal).isSome then return some ⟨c.tag, v.terminal⟩ else return none
  | _ => pure none

/-- Wraps an item.  A literal case takes no item and wraps its literal. -/
def wrap (item : Item) : m (Option Union) :=
  match c.recogniser, item with
  | .literal expected, _ => do return some ⟨c.tag, ← host.store expected⟩
  | .ofType type guard, item => do
    if item.type = type then
      if ← host.accepts guard item then return some ⟨c.tag, ← host.store item⟩
    return none
  | .byCast .., item => do c.wrapValue host (← host.store item)
  | .nested _ guard, .union child => do
    if ← host.accepts guard (.union child) then
      return some ⟨c.tag, child.toValue (← host.fresh)⟩
    return none
  | .nested .., _ => pure none

/-- Puts a child union back under its nested case. -/
def rewrap (child : Union) : m (Option Union) :=
  match c.recogniser with
  | .nested .. => c.wrap host (.union child)
  | _ => pure none

end CaseUnion.Case
