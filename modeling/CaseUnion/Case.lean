import CaseUnion.Item.Text

/-!
# Cases

A case is one entry of a registry: a name, its place in the order of declaration, and the
*recogniser* that decides which values belong to it.  A recogniser is one of four.

* A literal recognises the values equal to it.
* A type recognises the values of that type.
* A custom cast recognises the values it turns into an item.
* A nested registry recognises the values that one of its own cases recognises.

The last three may be guarded by a predicate on the item they produce.  Custom casts and predicates
are names here, of two types that the whole theory leaves open; what they mean is said where values
are discriminated.

Every recogniser works in two steps.  Its *source* turns the terminal value into an item, by a cast
or by asking a nested registry.  Its *check*, if it has one, then accepts or refuses the item.
-/

namespace CaseUnion

open Text (Layout quote)

/-- The number of a registry, in order of creation. -/
abbrev RegistryId := Nat

/-- What decides whether a value belongs to a case, for custom casts `C` and predicates `P`. -/
inductive Recogniser (C P : Type) where
  /-- Values equal to an item. -/
  | literal (expected : Item)
  /-- Values of a type. -/
  | ofType (type : ItemType) (guard : Option P)
  /-- Values that a custom cast turns into an item. -/
  | byCast (cast : C) (guard : Option P)
  /-- Values that a case of another registry recognises. -/
  | nested (child : RegistryId) (guard : Option P)

/-- What turns a terminal value into an item. -/
inductive Cast (C : Type) where
  /-- The content of the value, if it has the type. -/
  | content (type : ItemType)
  /-- What a custom cast makes of the value. -/
  | custom (cast : C)

/-- Where the item of a recogniser comes from. -/
inductive Source (C : Type) where
  /-- The item that a cast makes. -/
  | cast (cast : Cast C)
  /-- The union that a nested registry answers with. -/
  | registry (child : RegistryId)

/-- What an item has to pass. -/
inductive Check (P : Type) where
  /-- The item is equal to another one. -/
  | equals (expected : Item)
  /-- A predicate holds of the item. -/
  | custom (predicate : P)

/-- How a case was declared.  A custom cast counts as a type. -/
inductive CaseKind where
  | literal
  | member
  | memberWhen
  | union
  | unionWhen
deriving DecidableEq, Repr

/-- What a case tells about itself. -/
structure CaseInfo where
  /-- The label of its registry. -/
  registry : String
  /-- Its name in the registry. -/
  name : String
  /-- Its place in the order of declaration. -/
  ordinal : Nat
  /-- How it was declared. -/
  kind : CaseKind
deriving DecidableEq, Repr

/-- One case of a registry.  It serves as the handle of the case as well. -/
structure Case (C P : Type) where
  /-- The label of its registry. -/
  registry : String
  /-- Its name in the registry. -/
  name : String
  /-- Its place in the order of declaration. -/
  ordinal : Nat
  /-- The tag of the unions its handle makes. -/
  tag : Tag
  /-- What decides which values belong to it. -/
  recogniser : Recogniser C P

namespace CaseKind

/-- Whether cases of a kind delegate to a registry. -/
def isNested : CaseKind → Bool
  | union | unionWhen => true
  | literal | member | memberWhen => false

/-- The short name of a kind. -/
def word : CaseKind → String
  | literal => "Object"
  | member => "Instance"
  | memberWhen => "InstanceWhen"
  | union => "Union"
  | unionWhen => "UnionWhen"

/-- The name of a kind in the text of a case. -/
def text (kind : CaseKind) : String := kind.word ++ "Case"

end CaseKind

namespace Recogniser

variable {C P : Type}

/-- The kind of the cases that have a recogniser. -/
def kind : Recogniser C P → CaseKind
  | literal _ => .literal
  | ofType _ none | byCast _ none => .member
  | ofType _ (some _) | byCast _ (some _) => .memberWhen
  | nested _ none => .union
  | nested _ (some _) => .unionWhen

/-- The registry a nested case delegates to. -/
def child? : Recogniser C P → Option RegistryId
  | nested child _ => some child
  | _ => none

/-- The first step of a recogniser. -/
def source : Recogniser C P → Source C
  | literal expected => .cast (.content expected.type)
  | ofType type _ => .cast (.content type)
  | byCast cast _ => .cast (.custom cast)
  | nested child _ => .registry child

/-- The second step of a recogniser. -/
def check? : Recogniser C P → Option (Check P)
  | literal expected => some (.equals expected)
  | ofType _ guard | byCast _ guard | nested _ guard => guard.map .custom

theorem child?_eq_some_iff {recogniser : Recogniser C P} {child : RegistryId} :
    recogniser.child? = some child ↔ recogniser.source = .registry child := by
  cases recogniser <;> simp [child?, source]

/-- The type of item that the declaration names.  A custom cast names none. -/
def declaredType? : Recogniser C P → Option ItemType
  | literal expected => some expected.type
  | ofType type _ => some type
  | byCast .. | nested .. => none

end Recogniser

/-- The text of a case: its registry, kind, name and place. -/
def CaseInfo.text (info : CaseInfo) : String :=
  info.registry ++ "." ++ info.kind.text
    ++ "(name=" ++ info.name ++ ", ordinal=" ++ toString info.ordinal ++ ")"

/-- The layout of what a case tells about itself. -/
def CaseInfo.layout (info : CaseInfo) : Layout :=
  .record "CaseInfo" [
    ("registry", .word (quote info.registry)),
    ("name", .word (quote info.name)),
    ("ordinal", .word (toString info.ordinal)),
    ("kind", .word info.kind.word)]

namespace Case

variable {C P : Type}

/-- What a case tells about itself. -/
def info (c : Case C P) : CaseInfo where
  registry := c.registry
  name := c.name
  ordinal := c.ordinal
  kind := c.recogniser.kind

/-- The item that a literal case expects. -/
def literal? (c : Case C P) : Option Item :=
  match c.recogniser with
  | .literal expected => some expected
  | _ => none

/-- The layout of a handle, where `label` gives the labels of registries. -/
def layout (label : RegistryId → String) (c : Case C P) : Layout :=
  match c.recogniser with
  | .literal expected =>
      .record "ObjectCase" [("info", c.info.layout), ("literal", expected.layout)]
  | .ofType _ none => .tuple "InstanceCase" [c.info.layout]
  | .ofType _ (some _) => .tuple "WhenCase" [c.info.layout]
  | .byCast .. => .tuple "CastCase" [c.info.layout]
  | .nested child none =>
      .record "UnionCase" [("info", c.info.layout), ("nested", .word (quote (label child)))]
  | .nested child (some _) =>
      .record "UnionWhenCase" [("info", c.info.layout), ("nested", .word (quote (label child)))]

end Case

end CaseUnion
