import CaseUnion.Optional
import CaseUnion.Script.Language

/-!
# Reports

What the steps of a script answer, and the log of what custom casts, predicates and bodies did on
the way.
-/

namespace CaseUnion.Script

/-- What a pass looked like after one of its clauses. -/
structure PassStatus where
  /-- Whether it had a result. -/
  resolved : Bool
  /-- Whether it was broken. -/
  broken : Bool
  /-- Its current union. -/
  current : Union

/-- The outcome of a pass and what it looked like after each clause. -/
structure PassReport where
  /-- What its entry point gave. -/
  result : Except MissingOtherwise Item
  /-- What it looked like after each clause. -/
  states : List PassStatus

/-- What a registry tells about itself. -/
structure RegistryReport where
  label : String
  flavor : Flavor
  id : RegistryId
  /-- The number of its cases. -/
  size : Nat
  /-- Whether it takes no further case. -/
  isSealed : Bool
  /-- What its cases tell about themselves. -/
  cases : List CaseInfo
  /-- Names and places, by name. -/
  byName : List (String × Nat)
  /-- The registry, written out. -/
  text : String

/-- What the handle of a case tells about itself. -/
structure HandleReport where
  info : CaseInfo
  /-- The handle on one line. -/
  inline : String
  /-- The handle over several lines. -/
  indented : String
  /-- The item that a literal case expects. -/
  literal : Option Item

/-- What a value tells about itself. -/
structure ValueReport where
  value : Value
  /-- The name of the type of its content. -/
  typeName : String
  /-- The value, written out. -/
  text : String
  /-- Whether it stores a layer. -/
  isUnion : Bool
  /-- The value without its layers. -/
  terminal : Value
  /-- Whether its content is a value, which no content is. -/
  isValue : Bool

/-- What a union tells about itself. -/
structure UnionReport where
  /-- What its own layer holds. -/
  inner : Value
  /-- The value behind all its layers. -/
  terminal : Value
  /-- The same, asked of the layer. -/
  layerTerminal : Value
  /-- The values met when the layers are taken off one by one. -/
  peels : List Value
  /-- The union, written out. -/
  text : String
  /-- Its layer, written out. -/
  layerText : String
  /-- The union as a value. -/
  value : Value
  /-- Whether both ways to a value give the same one. -/
  convertsAlike : Bool

/-- How two values compare. -/
structure Comparison where
  /-- Whether they are equal. -/
  same : Bool
  /-- Whether they are unequal. -/
  different : Bool
  /-- Whether they are equal the other way round. -/
  flipped : Bool
  /-- Whether they are one allocation. -/
  shared : Bool

/-- What a step answers. -/
inductive Result where
  | flag (b : Bool)
  /-- Whether a registry was sealed before, and whether it is now. -/
  | sealing (before after : Bool)
  | created (id : RegistryId)
  | cloned (id : RegistryId) (same : Bool)
  | registered (info : CaseInfo)
  /-- A registration failed; the message is as the script reads it. -/
  | refused (error : RegistrationError) (message : String)
  | missing (error : Optional.EmptyError)
  | registry (report : RegistryReport)
  | info (info : Option CaseInfo)
  | handle (report : HandleReport)
  | value (v : Value)
  | layer (inner : Value)
  | union (u : Option Union)
  | optional (item : Option Item)
  | item (item : Item)
  /-- Whether a value has a type, whether its content can be had at it, and the content. -/
  | typed (isType downcasts : Bool) (content : Option Item)
  | valueInfo (report : ValueReport)
  | unionInfo (report : UnionReport)
  | comparison (c : Comparison)
  /-- A query that returns the union it was asked of. -/
  | receiver
  | pass (report : PassReport)

/-- Something that was done during a step. -/
inductive LogEntry where
  /-- A registered predicate was evaluated; the site is its registry and case. -/
  | predicate (site : String) (out : Bool)
  /-- A registered custom cast was run, and whether it accepted. -/
  | cast (site : String) (out : Bool)
  | say (item : Item)
  | otherwise (item : Item)
  | did (result : Result)
  | innerPass (report : PassReport)
  /-- A step of a morph, with the current union after it. -/
  | morphed (step : MorphStep) (current : Union) (out : Option Result)

/-! ## Making reports -/

/-- The layout of a registry. -/
def registryLayout {C P : Type} (id : RegistryId) (r : Registry C P) : Text.Layout :=
  .tuple (r.flavor.word ++ "Cases") [
    .record "RegistryCore" [
      ("id", .tuple "RegistryId" [.word (toString id)]),
      ("label", .word (Text.quote r.label)),
      ("flavor", .word r.flavor.word),
      ("len", .word (toString r.size)),
      ("sealed", .word (toString r.isSealed))]]

/-- The report of a registry. -/
def RegistryReport.of {C P : Type} (id : RegistryId) (r : Registry C P) : RegistryReport where
  label := r.label
  flavor := r.flavor
  id := id
  size := r.size
  isSealed := r.isSealed
  cases := r.infos
  byName := r.byName.toList.map fun (name, info) => (name, info.ordinal)
  text := (registryLayout id r).inline

/-- The report of the handle of a case. -/
def HandleReport.of {C P : Type} (w : World C P) (c : Case C P) : HandleReport :=
  let layout := c.layout fun id => (w.registry id).label
  { info := c.info, inline := layout.inline, indented := layout.indented 0, literal := c.literal? }

/-- The report of a value, with the types of the program under a path. -/
def ValueReport.of (home : String) (v : Value) : ValueReport where
  value := v
  typeName := v.type.name home
  text := v.layout.inline
  isUnion := v.isLayer
  terminal := v.terminal
  isValue := v.type = .value

/-- The report of a union, given two blocks for the values it is turned into. -/
def UnionReport.of (u : Union) (first second : Nat) : UnionReport where
  inner := u.inner
  terminal := u.terminal
  layerTerminal := u.inner.terminal
  peels := u.inner.peels
  text := u.layout.inline
  layerText := (layerLayout u.inner.layout).inline
  value := u.toValue first
  convertsAlike := (u.toValue first).same (u.toValue second)

/-- The comparison of two values. -/
def Comparison.of (v w : Value) : Comparison where
  same := v.same w
  different := !v.same w
  flipped := w.same v
  shared := v.addr = w.addr

end CaseUnion.Script
