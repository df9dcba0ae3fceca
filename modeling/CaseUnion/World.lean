import CaseUnion.Nesting
import CaseUnion.Registry

/-!
# Worlds

A world holds the registries made so far, by number, and the tags of the wrapper types: a tag
becomes one when a registry of it is made, and stays one.  A number that no registry has stands for
the vacant registry, which is sealed and has no case.

Nesting makes the registries a graph.  `reaches` asks whether a registry is, or contains at some
depth, another one.
-/

namespace CaseUnion

/-- The registries made so far and the tags of the wrapper types. -/
structure World (C P : Type) where
  /-- The registries in order of creation. -/
  registries : List (Registry C P) := []
  /-- The tags of the wrapper types, the last one first. -/
  wrappers : List Tag := []

namespace World

variable {C P : Type}

/-- The registry of a number. -/
def registry (w : World C P) (id : RegistryId) : Registry C P := (w.registries[id]?).getD .vacant

/-- The number of registries, which is also the number of the next one. -/
def size (w : World C P) : Nat := w.registries.length

/-- The world with a tag among those of the wrapper types. -/
def declareWrapper (w : World C P) (tag : Tag) : World C P :=
  if tag ∈ w.wrappers then w else { w with wrappers := tag :: w.wrappers }

/-- Makes an empty registry.  Its number is the size of the world before. -/
def create (w : World C P) (label : String) (flavor : Flavor) (tag : Tag) : World C P :=
  let w := w.declareWrapper tag
  { w with registries := w.registries ++ [{ label, flavor, tag }] }

/-- The world with one registry changed, if there is one of the number. -/
def update (w : World C P) (id : RegistryId) (change : Registry C P → Registry C P) : World C P :=
  { w with registries := w.registries.modify id change }

/-- The world with a registry sealed. -/
def sealRegistry (w : World C P) (id : RegistryId) : World C P :=
  w.update id fun r => { r with isSealed := true }

/-- The registries nested directly in the registry of a number. -/
def children (w : World C P) (id : RegistryId) : List RegistryId := (w.registry id).children

/-- Whether a registry is another one or has it nested at some depth. -/
def reaches (w : World C P) (id target : RegistryId) : Bool :=
  Nesting.reaches w.children w.size id target

/-! ## Sizes and registries after a change -/

@[simp] theorem size_declareWrapper (w : World C P) (tag : Tag) :
    (w.declareWrapper tag).size = w.size := by
  unfold declareWrapper
  split <;> rfl

@[simp] theorem registry_declareWrapper (w : World C P) (tag : Tag) (id : RegistryId) :
    (w.declareWrapper tag).registry id = w.registry id := by
  unfold declareWrapper
  split <;> rfl

@[simp] theorem size_create (w : World C P) (label : String) (flavor : Flavor) (tag : Tag) :
    (w.create label flavor tag).size = w.size + 1 := by
  rw [← size_declareWrapper w tag]
  simp [create, size]

@[simp] theorem size_update (w : World C P) (id : RegistryId)
    (change : Registry C P → Registry C P) : (w.update id change).size = w.size := by
  simp [update, size]

/-- A number that no registry has stands for the vacant registry. -/
theorem registry_eq_vacant {w : World C P} {id : RegistryId} (h : w.size ≤ id) :
    w.registry id = .vacant := by
  simp [registry, List.getElem?_eq_none h]

/-- A new registry is empty, and the others stay as they are. -/
theorem registry_create (w : World C P) (label : String) (flavor : Flavor) (tag : Tag)
    (id : RegistryId) :
    (w.create label flavor tag).registry id
      = if id = w.size then { label, flavor, tag } else w.registry id := by
  rw [← registry_declareWrapper w tag, ← size_declareWrapper w tag]
  unfold registry create size
  rw [List.getElem?_append]
  split
  next hlt => rw [if_neg (Nat.ne_of_lt hlt)]
  next hge =>
    split
    next heq => simp [heq]
    next hne =>
      have hlt : (w.declareWrapper tag).registries.length < id :=
        Nat.lt_of_le_of_ne (Nat.le_of_not_lt hge) (Ne.symm hne)
      simp [Nat.le_of_lt hlt, Nat.sub_ne_zero_of_lt hlt]

/-- A change touches one registry, if that exists. -/
theorem registry_update (w : World C P) (id : RegistryId) (change : Registry C P → Registry C P)
    (other : RegistryId) :
    (w.update id change).registry other
      = if other = id ∧ id < w.size then change (w.registry id) else w.registry other := by
  unfold registry update size
  rw [List.getElem?_modify]
  by_cases heq : other = id
  · subst heq
    by_cases hlt : other < w.registries.length
    · simp [hlt]
    · simp [hlt]
  · simp [heq, Ne.symm heq]

end World

end CaseUnion
