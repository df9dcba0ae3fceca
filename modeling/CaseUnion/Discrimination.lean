import CaseUnion.Host

/-!
# Discrimination

Discriminating a terminal value finds the first case of a registry that recognises it.  Cases are
tried in the order of declaration.  A case without a nested registry stores the terminal value
itself.  A nested case asks its registry, guards the union that comes back, and stores the layer
of that union.

One call is one *walk*, and a walk asks each registry once.  Its memo holds, for every registry
asked, either that the answer is pending or the answer.  The answer in the memo is the registry's
own, before any guard, so a guarded case that asks again runs its guard again.  A registry that is
asked while its answer is pending has no answer.

The layers a walk makes all lie in one block.
-/

namespace CaseUnion

/-- What a walk knows about a registry that was asked. -/
inductive Slot where
  /-- It is being asked. -/
  | pending
  /-- It has answered. -/
  | done (answer : Option Union)

/-- What a walk knows, registry by registry. -/
abbrev Memo := Std.TreeMap RegistryId Slot

/-- A computation that asks registries and remembers their answers. -/
abbrev Walk (m : Type → Type) := StateT Memo m

/-- What a case stores for a terminal value, given the item it saw. -/
def Recogniser.stored {C P : Type} (block : Nat) (terminal : Value) :
    Recogniser C P → Item → Value
  | .nested .., .union child => child.toValue block
  | _, _ => terminal

namespace Host

variable {C P : Type} {m : Type → Type} [Monad m] (host : Host C P m)

/-! ## One case -/

/-- The item that a recogniser sees in a terminal value, given how nested registries answer. -/
def see (ask : RegistryId → Walk m (Option Union)) (terminal : Value)
    (recogniser : Recogniser C P) : Walk m (Option Item) := do
  let item ← match recogniser.source with
    | .cast cast => host.convert cast terminal
    | .registry child => do pure ((← ask child).map .union)
  host.checked recogniser.check? item

/-! ## One registry -/

/-- The first case that recognises a terminal value, with the item it saw. -/
def firstMatch (ask : RegistryId → Walk m (Option Union)) (terminal : Value) :
    List (Case C P) → Walk m (Option (Case C P × Item))
  | [] => pure none
  | c :: rest => do
    match ← host.see ask terminal c.recogniser with
    | some item => return some (c, item)
    | none => firstMatch ask terminal rest

/-- The case of a registry that a terminal value belongs to, with the item it saw. -/
def discriminate (ask : RegistryId → Walk m (Option Union)) (terminal : Value)
    (r : Registry C P) : Walk m (Option (Case C P × Item)) := do
  let found ← host.firstMatch ask terminal r.cases
  if let some (c, _) := found then
    host.emit (.matched r.label c.info terminal.type)
  return found

/-! ## The walk -/

/-- The answer of a registry to a terminal value: the union of the case that it belongs to. -/
def answer (block : Nat) (terminal : Value) : Nat → RegistryId → Walk m (Option Union)
  | 0, _ => pure none
  | depth + 1, id => do
    let r ← host.registry id
    match (← get)[id]? with
    | some (.done known) =>
      host.emit (.recalled r.label known.isSome)
      return known
    | some .pending =>
      host.emit (.reentered r.label)
      return none
    | none =>
      modify (·.insert id .pending)
      let found ← host.discriminate (answer block terminal depth) terminal r
      let union := found.map fun (c, item) =>
        ⟨r.tag, c.recogniser.stored block terminal item⟩
      modify (·.insert id (.done union))
      return union

/-- Runs a walk with an empty memo.  The walk is given the answers of registries to a value. -/
def walk {α : Type} (v : Value)
    (body : (RegistryId → Walk m (Option Union)) → Walk m α) : m α := do
  let block ← host.fresh
  (body (host.answer block v.terminal host.depth)).run' ∅

/-! ## Registries -/

/-- Wraps a value under the first case of a registry that recognises its terminal value. -/
def wrapValue (id : RegistryId) (v : Value) : m (Option Union) :=
  host.walk v fun ask => ask id

/-- Wraps an item, stored in a block of its own first. -/
def wrap (id : RegistryId) (item : Item) : m (Option Union) := do
  host.wrapValue id (← host.store item)

/-- Whether a registry wraps a value. -/
def canWrapValue (id : RegistryId) (v : Value) : m Bool := do
  return (← host.wrapValue id v).isSome

/-- Whether a registry wraps an item. -/
def canWrap (id : RegistryId) (item : Item) : m Bool := do
  return (← host.wrap id item).isSome

/-- The case of a registry that a union belongs to: the first that recognises its terminal
value. -/
def which (id : RegistryId) (u : Union) : m (Option CaseInfo) := do
  let r ← host.registry id
  let found ← host.walk u.inner fun ask => host.discriminate ask u.terminal r
  return found.map fun (c, _) => c.info

end Host

end CaseUnion
