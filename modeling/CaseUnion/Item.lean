import CaseUnion.Value

/-!
# Items

An item is what a match hands to its caller and what a caller hands in: a bare datum, a union, a
value, or a layer taken off a union.  `Value.ofItem` stores an item.  A value stands for itself, a
layer or a union of a wrapper type becomes a layer value, and anything else is stored as a datum.
`Value.downcast` is the way back: it gives the content of a value if that has the type asked for.
-/

namespace CaseUnion

/-- A scalar or a list of values, outside any value. -/
inductive Datum where
  /-- A single scalar. -/
  | scalar (content : Scalar)
  /-- A list, whose elements are values of their own. -/
  | list (elements : List Value)

/-- A value known to belong to a registry of some tag, behind the union's own layer. -/
structure Union where
  /-- The type of the union. -/
  tag : Tag
  /-- What its own layer holds. -/
  inner : Value

/-- What a match hands out. -/
inductive Item where
  /-- A bare datum. -/
  | datum (content : Datum)
  /-- A union, which a nested case hands out. -/
  | union (content : Union)
  /-- A value as it is. -/
  | value (content : Value)
  /-- A layer without the type of the union it came from, around a value. -/
  | layer (inner : Value)

/-- The types of data, one for each form of a scalar and one for lists. -/
inductive DatumType where
  | int32
  | int64
  | nat8
  | nat64
  | float64
  | bool
  | staticText
  | ownedText
  | unit
  | bird
  | zebra
  | list
deriving DecidableEq, Repr

/-- The types of items.  A union has its tag in its type. -/
inductive ItemType where
  | datum (type : DatumType)
  | union (tag : Tag)
  | value
  | layer
deriving DecidableEq, Repr

/-! ## Data -/

/-- The type of a scalar. -/
def Scalar.type : Scalar → DatumType
  | .int32 _ => .int32
  | .int64 _ => .int64
  | .nat8 _ => .nat8
  | .nat64 _ => .nat64
  | .float64 _ => .float64
  | .bool _ => .bool
  | .staticText _ => .staticText
  | .ownedText _ => .ownedText
  | .unit => .unit
  | .bird .. => .bird
  | .zebra _ => .zebra

namespace Datum

/-- The type of a datum. -/
def type : Datum → DatumType
  | scalar s => s.type
  | list _ => .list

/-- Equality of data: of one type, and equal as data of that type. -/
def same : Datum → Datum → Bool
  | scalar x, scalar y => x.same y
  | list xs, list ys => Value.sameElements xs ys
  | _, _ => false

/-- A datum as a value at an address. -/
def storedAt (addr : Address) : Datum → Value
  | scalar s => .scalar addr s
  | list vs => .list addr vs

end Datum

/-! ## Unions -/

namespace Union

/-- The value behind all layers of a union. -/
def terminal (u : Union) : Value := u.inner.terminal

/-- The union's own layer as a value, its tag forgotten. -/
def toValue (block : Nat) (u : Union) : Value := u.inner.boxed block

/-- Equality of unions of one tag: the same value behind the layer. -/
def same (u w : Union) : Bool := u.inner.same w.inner

end Union

/-! ## Items and values -/

namespace Item

/-- The type of an item. -/
def type : Item → ItemType
  | datum d => .datum d.type
  | union u => .union u.tag
  | value _ => .value
  | layer _ => .layer

/-- Equality of items: of one type, and equal as items of that type. -/
def same : Item → Item → Bool
  | datum d, datum e => d.same e
  | union u, union w => u.tag = w.tag && u.same w
  | value v, value w => v.same w
  | layer v, layer w => v.same w
  | _, _ => false

/-- A scalar as an item. -/
def ofScalar (s : Scalar) : Item := datum (.scalar s)

/-- The item that says nothing. -/
def unit : Item := ofScalar .unit

/-- The union that an item is, if it is one. -/
def union? : Item → Option Union
  | union u => some u
  | _ => none

end Item

namespace Value

/-- Stores an item in a block, where `wrappers` are the tags of the wrapper types. -/
def ofItem (wrappers : List Tag) (block : Nat) : Item → Value
  | .datum d => d.storedAt ⟨block, 0⟩
  | .value v => v
  | .layer v => v.boxed block
  | .union u =>
      if u.tag ∈ wrappers then u.toValue block
      else .handle ⟨block, 0⟩ u.tag u.inner

/-- What is stored, as an item. -/
def content : Value → Item
  | .scalar _ s => .datum (.scalar s)
  | .list _ vs => .datum (.list vs)
  | .layer _ v => .layer v
  | .handle _ tag v => .union ⟨tag, v⟩

/-- The type of what is stored.  No value stores a value. -/
def type (v : Value) : ItemType := v.content.type

/-- The content of a value, if it has the type. -/
def downcast (type : ItemType) (v : Value) : Option Item :=
  if v.type = type then some v.content else none

end Value

/-- Whether the items of a type are unions or layers: a layer, or a union whose tag is that of a
wrapper type. -/
def ItemType.isWrapper (wrappers : List Tag) : ItemType → Bool
  | .layer => true
  | .union tag => tag ∈ wrappers
  | .datum _ | .value => false

end CaseUnion
