import CaseUnion.Registration

/-!
# Events

What an observer of the library is told as it happens: registries made, filled and sealed, cases
matched, answers taken from the memo of a walk, and passes ended.  An event is written as its level,
its message and its fields in order.  The names of types among the fields depend on the path `home`
that the program defines its own types under.
-/

namespace CaseUnion

/-- Something an observer is told. -/
inductive Event where
  /-- A registry was made. -/
  | created (registry : String) (flavor : Flavor) (id : RegistryId)
  /-- A case was added. -/
  | registered (info : CaseInfo)
  /-- A case was refused. -/
  | refused (error : RegistrationError)
  /-- A registry was sealed, with so many cases. -/
  | sealedRegistry (registry : String) (cases : Nat)
  /-- A case of a registry accepted a value; the last field names the type of the value. -/
  | matched (registry : String) (info : CaseInfo) (payload : ItemType)
  /-- A walk asked a registry again and took the answer from its memo. -/
  | recalled (registry : String) (found : Bool)
  /-- A walk asked a registry while it was still being asked. -/
  | reentered (registry : String)
  /-- The clauses of a pass have been run. -/
  | passFinished (pass : String) (resolved broken otherwiseSeen : Bool)
  /-- A `map` pass ended without a result. -/
  | unresolvedMap (otherwiseSeen : Bool)
  /-- A morphed child union was refused by the case it came from. -/
  | morphRefused (name : String)
deriving DecidableEq, Repr

/-- How important an event is. -/
inductive Level where
  | debug
  | trace
deriving DecidableEq, Repr

/-- The name of a level. -/
def Level.text : Level → String
  | debug => "DEBUG"
  | trace => "TRACE"

/-- An event as it is written. -/
structure Record where
  /-- How important it is. -/
  level : Level
  /-- What it says, the same for all events of its kind. -/
  message : String
  /-- The names and values of its fields. -/
  fields : List (String × String)

/-- The level, the message and the fields on one line. -/
def Record.text (r : Record) : String :=
  " ".intercalate (r.level.text :: r.message :: r.fields.map fun field => field.1 ++ "=" ++ field.2)

/-- The record of a refused registration. -/
def RegistrationError.record (home : String) : RegistrationError → Record
  | wrapperType registry name type =>
      ⟨.debug, "rejected case: union type registered as instance",
        [("registry", registry), ("case", name), ("type_name", type.name home)]⟩
  | sealedRegistry registry name =>
      ⟨.debug, "rejected case: registry sealed", [("registry", registry), ("case", name)]⟩
  | duplicateName registry name =>
      ⟨.debug, "rejected case: duplicate name", [("registry", registry), ("case", name)]⟩
  | recursiveNesting registry name nested =>
      ⟨.debug, "rejected case: recursive union",
        [("registry", registry), ("case", name), ("nested", nested)]⟩

namespace Event

/-- The record of an event. -/
def record (home : String) : Event → Record
  | created registry flavor id =>
      ⟨.debug, "created registry",
        [("registry", registry), ("flavor", flavor.text), ("id", toString id)]⟩
  | registered info =>
      ⟨.debug, "registered case",
        [("registry", info.registry), ("case", info.name), ("ordinal", toString info.ordinal),
          ("kind", info.kind.text)]⟩
  | refused error => error.record home
  | sealedRegistry registry cases =>
      ⟨.debug, "sealed registry", [("registry", registry), ("cases", toString cases)]⟩
  | matched registry info payload =>
      ⟨.trace, "case matched",
        [("registry", registry), ("case", info.name), ("ordinal", toString info.ordinal),
          ("payload", payload.name home)]⟩
  | recalled registry found =>
      ⟨.trace, "wrap cache hit", [("registry", registry), ("matched", toString found)]⟩
  | reentered registry =>
      ⟨.trace, "registry re-entered during its own wrap", [("registry", registry)]⟩
  | passFinished pass resolved broken otherwiseSeen =>
      ⟨.trace, "resolution pass finished",
        [("pass", pass), ("resolved", toString resolved), ("broken", toString broken),
          ("otherwise_seen", toString otherwiseSeen)]⟩
  | unresolvedMap otherwiseSeen =>
      ⟨.debug, "map pass ended without a result", [("otherwise_seen", toString otherwiseSeen)]⟩
  | morphRefused name =>
      ⟨.trace, "morphed child rejected by its case; keeping current", [("case", name)]⟩

/-- The line that an event is written as. -/
def text (home : String) (event : Event) : String := (event.record home).text

end Event

end CaseUnion
