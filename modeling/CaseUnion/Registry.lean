import CaseUnion.Case
import Std.Data.TreeMap.Basic

/-!
# Registries

A registry is an ordered, append-only list of cases with distinct names, and a map from the names
to the places of the cases.  A match registry wraps any value on its own and may be nested; a
discerning registry only tells its own cases apart.  Once sealed, a registry takes no further case.
-/

namespace CaseUnion

/-- The matching discipline of a registry. -/
inductive Flavor where
  /-- Wraps any value, alone or as a nested case. -/
  | matching
  /-- Tells its own cases apart and wraps nothing on its own. -/
  | discerning
deriving DecidableEq, Repr

/-- The name of a flavor. -/
def Flavor.text : Flavor → String
  | matching => "match"
  | discerning => "discern"

/-- The short name of a flavor in the layout of a registry. -/
def Flavor.word : Flavor → String
  | matching => "Match"
  | discerning => "Discern"

/-- An ordered list of named cases. -/
structure Registry (C P : Type) where
  /-- What the registry is called in texts.  Labels need not differ. -/
  label : String
  /-- Its matching discipline. -/
  flavor : Flavor
  /-- The type of its unions. -/
  tag : Tag
  /-- The cases in the order of declaration. -/
  cases : List (Case C P) := []
  /-- The places of the cases by name. -/
  places : Std.TreeMap String Nat := ∅
  /-- Whether the registry takes no further case. -/
  isSealed : Bool := false

namespace Registry

variable {C P : Type}

/-- The registry of a number that no registry has. -/
def vacant : Registry C P where
  label := ""
  flavor := .discerning
  tag := ⟨""⟩
  isSealed := true

/-- Where a registry is needed and there is none, the vacant one stands in. -/
instance : Inhabited (Registry C P) := ⟨vacant⟩

/-- The number of cases. -/
def size (r : Registry C P) : Nat := r.cases.length

/-- What the cases tell about themselves, in the order of declaration. -/
def infos (r : Registry C P) : List CaseInfo := r.cases.map Case.info

/-- What the case of a name tells about itself. -/
def caseNamed (r : Registry C P) (name : String) : Option CaseInfo := do
  let place ← r.places[name]?
  let found ← r.cases[place]?
  return found.info

/-- What the cases tell about themselves, by name. -/
def byName (r : Registry C P) : Std.TreeMap String CaseInfo :=
  r.infos.foldl (fun map info => map.insert info.name info) ∅

/-- The case that a recogniser would be under a name, behind those that are there. -/
def nextCase (r : Registry C P) (name : String) (recogniser : Recogniser C P) : Case C P where
  registry := r.label
  name := name
  ordinal := r.size
  tag := r.tag
  recogniser := recogniser

/-- The registry with one more case at the end. -/
def push (r : Registry C P) (c : Case C P) : Registry C P :=
  { r with cases := r.cases ++ [c], places := r.places.insert c.name c.ordinal }

/-- The registries that the nested cases delegate to, in the order of declaration. -/
def children (r : Registry C P) : List RegistryId := r.cases.filterMap fun c => c.recogniser.child?

@[simp] theorem cases_push (r : Registry C P) (c : Case C P) :
    (r.push c).cases = r.cases ++ [c] := rfl

@[simp] theorem places_push (r : Registry C P) (c : Case C P) :
    (r.push c).places = r.places.insert c.name c.ordinal := rfl

/-- What a nested case delegates to is a child. -/
theorem mem_children {r : Registry C P} {c : Case C P} (hc : c ∈ r.cases) {child : RegistryId}
    (hchild : c.recogniser.child? = some child) : child ∈ r.children :=
  List.mem_filterMap.mpr ⟨c, hc, hchild⟩

/-- One more case brings at most one more child. -/
@[simp] theorem children_push (r : Registry C P) (c : Case C P) :
    (r.push c).children = r.children ++ c.recogniser.child?.toList := by
  cases h : c.recogniser.child? <;> simp [children, h]

end Registry

end CaseUnion
