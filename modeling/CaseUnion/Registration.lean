import CaseUnion.World

/-!
# Registration

A registration adds a case to a registry under a name.  It is refused for four faults, looked for in
this order.

* The case names a type of items that are unions, layers or values.  Those are matched by their
  terminal value, so such a case can recognise nothing and a nested case is meant.  Custom casts
  name no type and have no such fault.
* The registry is sealed.
* The name is taken.
* The case nests a registry that is, or contains, the registry it is added to.

A refused registration changes nothing.  Otherwise the case goes to the end of the registry's list.
-/

namespace CaseUnion

open Text (quote)

/-- Why a registration was refused.  Every fault names the label of the registry and the name of the
case. -/
inductive RegistrationError where
  /-- The case names a type of unions, layers or values. -/
  | wrapperType (registry name : String) (type : ItemType)
  /-- The registry takes no further case. -/
  | sealedRegistry (registry name : String)
  /-- The registry has a case of the name. -/
  | duplicateName (registry name : String)
  /-- The case closes a cycle.  The label of the nested registry comes last. -/
  | recursiveNesting (registry name nested : String)
deriving DecidableEq, Repr

/-- The text of a fault, with the types of the program under a path. -/
def RegistrationError.message (home : String) : RegistrationError → String
  | wrapperType registry name type =>
      registry ++ ": case " ++ quote name ++ " registers union type " ++ type.name home
        ++ " as an instance; use a union case"
  | sealedRegistry registry name =>
      registry ++ ": cannot register " ++ quote name ++ " on a sealed registry"
  | duplicateName registry name => registry ++ ": duplicate case name " ++ quote name
  | recursiveNesting registry name nested =>
      registry ++ ": case " ++ quote name ++ " nests " ++ nested
        ++ ", which already contains " ++ registry

variable {C P : Type}

/-- The type of items that keeps a case out of every registry, if its recogniser names one. -/
def Recogniser.refusedType? (wrappers : List Tag) (recogniser : Recogniser C P) : Option ItemType :=
  recogniser.declaredType?.filter fun type => type = .value || type.isWrapper wrappers

namespace World

/-- The fault of a registration, if it has one. -/
def fault? (w : World C P) (id : RegistryId) (name : String) (recogniser : Recogniser C P) :
    Option RegistrationError :=
  let r := w.registry id
  match recogniser.refusedType? w.wrappers with
  | some type => some (.wrapperType r.label name type)
  | none =>
    if r.isSealed then some (.sealedRegistry r.label name)
    else if r.places.contains name then some (.duplicateName r.label name)
    else
      match recogniser.child? with
      | some child =>
        if w.reaches child id then some (.recursiveNesting r.label name (w.registry child).label)
        else none
      | none => none

/-- Adds a case to a registry, or tells the fault. -/
def register (w : World C P) (id : RegistryId) (name : String) (recogniser : Recogniser C P) :
    Except RegistrationError (World C P × Case C P) :=
  match w.fault? id name recogniser with
  | some error => .error error
  | none =>
    let c := (w.registry id).nextCase name recogniser
    .ok (w.update id fun r => r.push c, c)

end World

end CaseUnion
