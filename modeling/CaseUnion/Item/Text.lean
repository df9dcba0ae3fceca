import CaseUnion.Item
import CaseUnion.Text.Layout
import CaseUnion.Text.Quoted

/-!
# How items are written

Each type has a full name, and each item a layout.  A datum is written as its value, a layer as a
record of the value inside, and a union as a tuple of it.

Birds and zebras are types of the program that uses the library.  Where that defines its types is
left open: names are given for any path `home`.
-/

namespace CaseUnion

open Text (Layout quote)

/-- The full name of a type of data, with the types of the program under a path. -/
def DatumType.name (home : String) : DatumType → String
  | int32 => "i32"
  | int64 => "i64"
  | nat8 => "u8"
  | nat64 => "u64"
  | float64 => "f64"
  | bool => "bool"
  | staticText => "&str"
  | ownedText => "alloc::string::String"
  | unit => "()"
  | bird => home ++ "::Bird"
  | zebra => home ++ "::Zebra"
  | list => "alloc::vec::Vec<unionkit_cases::value::Value>"

/-- The full name of a type of items, with the types of the program under a path. -/
def ItemType.name (home : String) : ItemType → String
  | datum t => t.name home
  | union tag => "unionkit_cases::union::Union<" ++ tag.name ++ ">"
  | value => "unionkit_cases::value::Value"
  | layer => "unionkit_cases::repr::RawUnion"

/-- The layout of a scalar. -/
def Scalar.layout : Scalar → Layout
  | int32 n => .word (toString n.toInt)
  | int64 n => .word (toString n.toInt)
  | nat8 n => .word (toString n.toNat)
  | nat64 n => .word (toString n.toNat)
  | float64 x => .word x.text
  | bool b => .word (if b then "true" else "false")
  | staticText s | ownedText s => .word (quote s)
  | unit => .word "()"
  | bird name age =>
      .record "Bird" [("name", .word (quote name)), ("age", .word (toString age.toInt))]
  | zebra name => .record "Zebra" [("name", .word (quote name))]

/-- The layout of a layer around a value of a given layout. -/
def layerLayout (inner : Layout) : Layout := .record "RawUnion" [("value", inner)]

/-- The layout of a union around a value of a given layout. -/
def unionLayout (inner : Layout) : Layout := .tuple "Union" [inner]

mutual

/-- The layout of a value is that of its content. -/
def Value.layout : Value → Layout
  | .scalar _ s => s.layout
  | .list _ vs => .sequence (Value.layouts vs)
  | .layer _ v => layerLayout v.layout
  | .handle _ _ v => unionLayout v.layout

/-- The layouts of several values. -/
def Value.layouts : List Value → List Layout
  | [] => []
  | v :: vs => v.layout :: Value.layouts vs

end

/-- The layout of a datum. -/
def Datum.layout : Datum → Layout
  | scalar s => s.layout
  | list vs => .sequence (Value.layouts vs)

/-- The layout of a union. -/
def Union.layout (u : Union) : Layout := unionLayout u.inner.layout

/-- The layout of an item. -/
def Item.layout : Item → Layout
  | datum d => d.layout
  | union u => u.layout
  | value v => v.layout
  | layer v => layerLayout v.layout

end CaseUnion
