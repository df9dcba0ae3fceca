import CaseUnion.Binary64

/-!
# Values

A value is a shared, immutable handle: an address together with what is stored there.  Most values
store a datum, a scalar or a list of values.  A value may also store a *layer*, one union layer
around another value, and stripping the layers leads to the *terminal* value.  A union whose type
nobody has declared as a wrapper type is stored as it is, and is then terminal like any datum.

Two values are the same if they have one address or if their contents are the same.  The contents of
two values of different types are never the same.  A list is compared element by element and a layer
by the value inside, again as values.  So a list that holds a number that is not a number is the
same as itself only where the element is shared.

An address is a block and an offset.  Every operation that makes values owns a block of its own, and
within a block the offset is the number of layers of the value, so `boxed` never needs a counter.
-/

namespace CaseUnion

/-- Where a value is stored. -/
structure Address where
  /-- The block of the operation that made the value. -/
  block : Nat
  /-- The number of layers of the value. -/
  offset : Nat
deriving DecidableEq, Repr

/-- The type of the unions of a registry. -/
structure Tag where
  /-- Its full name. -/
  name : String
deriving DecidableEq, Repr

/-- A datum without parts of its own that could be shared. -/
inductive Scalar where
  /-- A signed number of 32 bits. -/
  | int32 (n : Int32)
  /-- A signed number of 64 bits. -/
  | int64 (n : Int64)
  /-- An unsigned number of 8 bits. -/
  | nat8 (n : UInt8)
  /-- An unsigned number of 64 bits. -/
  | nat64 (n : UInt64)
  /-- A floating point number. -/
  | float64 (x : Binary64)
  /-- A truth value. -/
  | bool (b : Bool)
  /-- A text that lives as long as the program. -/
  | staticText (s : String)
  /-- A text that belongs to whoever holds it. -/
  | ownedText (s : String)
  /-- The value that says nothing. -/
  | unit
  /-- A bird, a record of two fields. -/
  | bird (name : String) (age : Int64)
  /-- A zebra, a record of one field. -/
  | zebra (name : String)
deriving DecidableEq

/-- Equality of scalars: of one type, and equal as values of that type. -/
def Scalar.same : Scalar → Scalar → Bool
  | .float64 x, .float64 y => x.same y
  | x, y => x = y

/-- A shared handle to a stored value. -/
inductive Value where
  /-- A stored scalar. -/
  | scalar (addr : Address) (content : Scalar)
  /-- A stored list of values. -/
  | list (addr : Address) (elements : List Value)
  /-- One union layer around a value. -/
  | layer (addr : Address) (inner : Value)
  /-- A union whose tag is not that of a wrapper type, stored as it is. -/
  | handle (addr : Address) (tag : Tag) (inner : Value)

namespace Value

/-- Where a value is stored. -/
def addr : Value → Address
  | scalar a _ | list a _ | layer a _ | handle a _ _ => a

mutual

/-- Equality of values: one address, or contents that are the same. -/
def same : Value → Value → Bool
  | scalar a x, scalar b y => a = b || x.same y
  | list a xs, list b ys => a = b || sameElements xs ys
  | layer a v, layer b w => a = b || same v w
  | handle a s v, handle b t w => a = b || (s = t && same v w)
  | v, w => v.addr = w.addr

/-- Equality of lists of values, element by element. -/
def sameElements : List Value → List Value → Bool
  | [], [] => true
  | v :: vs, w :: ws => same v w && sameElements vs ws
  | _, _ => false

end

/-- Values are compared by `same`. -/
instance : BEq Value := ⟨same⟩

/-- The number of union layers around the terminal value. -/
def height : Value → Nat
  | layer _ v => v.height + 1
  | _ => 0

/-- The value without its union layers. -/
def terminal : Value → Value
  | layer _ v => v.terminal
  | v => v

/-- The values met when the layers are taken off one by one, the value itself first. -/
def peels : Value → List Value
  | layer a v => layer a v :: v.peels
  | v => [v]

/-- Whether a value stores a layer. -/
def isLayer : Value → Bool
  | layer .. => true
  | _ => false

/-- A layer around a value, stored in a block. -/
def boxed (block : Nat) (v : Value) : Value :=
  layer ⟨block, v.height + 1⟩ v

@[simp] theorem terminal_boxed (block : Nat) (v : Value) :
    (v.boxed block).terminal = v.terminal := rfl

@[simp] theorem terminal_terminal : ∀ v : Value, v.terminal.terminal = v.terminal
  | scalar .. | list .. | handle .. => rfl
  | layer _ v => terminal_terminal v

@[simp] theorem height_terminal : ∀ v : Value, v.terminal.height = 0
  | scalar .. | list .. | handle .. => rfl
  | layer _ v => height_terminal v

end Value

end CaseUnion
