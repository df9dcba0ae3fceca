import CaseUnion.Morph
import CaseUnion.Script.Report

/-!
# The state of a script

A script runs in a world of its own, in which the unions of its registries are a wrapper type from
the start.  One further type of unions becomes a wrapper type only when a script makes a registry
of it, the *late* registry.  What the two types are called, and where the program that runs scripts
defines its types, belongs to the `Setting` that the script runs in.

Until a script names the type of the late unions, a question mark is the placeholder for it, and
the message of a refused registration has the name of the type in place of each.  Events are read
as they are.

Running a script fails only on scripts that make no sense: a variable that was never set, an item
of the wrong kind, or a recursion through predicates without an end.
-/

namespace CaseUnion.Script

/-- Something registered by a script, with the site it is registered at. -/
structure Sited (α : Type) where
  /-- The label of the registry and the name of the case. -/
  site : String
  /-- What was registered. -/
  rule : α

/-- A custom cast with its site. -/
abbrev SitedCast := Sited CastRule

/-- A predicate with its site. -/
abbrev SitedPredicate := Sited Predicate

/-- What the program that runs scripts calls its types. -/
structure Setting where
  /-- The path that its types are defined under. -/
  home : String
  /-- The type of the unions of a script's registries. -/
  common : Tag
  /-- The type of the unions of the late registry. -/
  late : Tag
deriving DecidableEq, Repr

/-- The kinds of variables, each with a name space of its own. -/
inductive VariableKind where
  | registry
  | case
  | value
  | union
deriving DecidableEq, Repr

/-- Why a script makes no sense. -/
inductive Fault where
  /-- A variable was never set. -/
  | unbound (kind : VariableKind) (name : String)
  /-- Something of another kind was needed. -/
  | mistyped (needed : String)
  /-- The recursion went too deep. -/
  | exhausted
deriving DecidableEq, Repr

/-- What a script has made so far. -/
structure State where
  /-- What the program that runs the script calls its types. -/
  setting : Setting
  /-- The world of the script. -/
  world : World SitedCast SitedPredicate := { wrappers := [setting.common] }
  /-- The registries kept under names. -/
  registries : Std.TreeMap String RegistryId := ∅
  /-- The cases kept under names. -/
  cases : Std.TreeMap String (Case SitedCast SitedPredicate) := ∅
  /-- The values kept under names. -/
  values : Std.TreeMap String Value := ∅
  /-- The unions kept under names. -/
  unions : Std.TreeMap String Union := ∅
  /-- The late registry, the last one if there are several. -/
  late : Option RegistryId := none
  /-- Whether the script has named the type of the late unions. -/
  lateNamed : Bool := false
  /-- The first block that nothing has used yet. -/
  nextBlock : Nat := 0
  /-- What was done since the step began. -/
  log : Array LogEntry := #[]
  /-- What an observer was told since the step began. -/
  events : Array Event := #[]
  /-- What the innermost pass looked like after each clause so far. -/
  statuses : Array PassStatus := #[]

/-- A computation within a script. -/
abbrev Run := StateT State (Except Fault)

/-- The item and the current union at hand. -/
structure Scope where
  /-- The item, if there is one. -/
  item : Option Item := none
  /-- The current union, if there is one. -/
  current : Option Union := none

/-- How the languages are evaluated.  Each evaluator is written over these, so that the recursion
through all of them is tied in one place. -/
structure Evaluators where
  /-- The item of an expression. -/
  expr : Scope → Expr → Run Item
  /-- Whether a predicate holds of an item. -/
  holds : Predicate → Item → Run Bool
  /-- What a step answers. -/
  step : Step → Run Result
  /-- Does a step of a morph. -/
  morphStep : MorphStep → Morph Run PUnit
  /-- How deep the evaluation may still go. -/
  depth : Nat

namespace Run

/-! ## The log -/

/-- Adds an entry to the log. -/
def note (entry : LogEntry) : Run PUnit := modify fun s => { s with log := s.log.push entry }

/-- Tells the observer of an event. -/
def tell (event : Event) : Run PUnit := modify fun s => { s with events := s.events.push event }

/-- A block that nothing has used yet. -/
def fresh : Run Nat := modifyGet fun s => (s.nextBlock, { s with nextBlock := s.nextBlock + 1 })

/-- The message of a refused registration as the script reads it. -/
def spelled (error : RegistrationError) : Run String := do
  let s ← get
  let message := error.message s.setting.home
  return if s.lateNamed then message else message.replace "?" s.setting.late.name

/-! ## Variables -/

/-- The registry kept under a name. -/
def registryId (name : String) : Run RegistryId := do
  let some id := (← get).registries[name]? | throw (.unbound .registry name)
  return id

/-- The case kept under a name. -/
def case (name : String) : Run (Case SitedCast SitedPredicate) := do
  let some c := (← get).cases[name]? | throw (.unbound .case name)
  return c

/-- The value kept under a name. -/
def value (name : String) : Run Value := do
  let some v := (← get).values[name]? | throw (.unbound .value name)
  return v

/-- The union kept under a name. -/
def union (name : String) : Run Union := do
  let some u := (← get).unions[name]? | throw (.unbound .union name)
  return u

/-- Keeps a registry under a name, if there is one. -/
def keepRegistry (as? : Option String) (id : RegistryId) : Run PUnit :=
  match as? with
  | some name => modify fun s => { s with registries := s.registries.insert name id }
  | none => pure ⟨⟩

/-- Keeps a case under a name, if there is one. -/
def keepCase (as? : Option String) (c : Case SitedCast SitedPredicate) : Run PUnit :=
  match as? with
  | some name => modify fun s => { s with cases := s.cases.insert name c }
  | none => pure ⟨⟩

/-- Keeps a value under a name, if there is one. -/
def keepValue (as? : Option String) (v : Value) : Run PUnit :=
  match as? with
  | some name => modify fun s => { s with values := s.values.insert name v }
  | none => pure ⟨⟩

/-- Keeps a union under a name, if there are both. -/
def keepUnion (as? : Option String) (u : Option Union) : Run PUnit :=
  match as?, u with
  | some name, some u => modify fun s => { s with unions := s.unions.insert name u }
  | _, _ => pure ⟨⟩

/-! ## Items -/

/-- The union an item has to be. -/
def asUnion (item : Item) : Run Union :=
  match item with
  | .union u => pure u
  | _ => throw (.mistyped "union")

end Run

/-! ## Literals -/

mutual

/-- The item of a literal. -/
def Literal.eval : Literal → Run Item
  | .scalar s => pure (.ofScalar s)
  | .list literals => return .datum (.list (← Literal.evalAll literals))
  | .value name => return .value (← Run.value name)
  | .union name => return .union (← Run.union name)
  | .layer name => return .layer (← Run.union name).inner

/-- The elements of a list, each stored in a block of its own. -/
def Literal.evalAll : List Literal → Run (List Value)
  | [] => pure []
  | literal :: rest => do
    let item ← literal.eval
    let v := Value.ofItem (← get).world.wrappers (← Run.fresh) item
    return v :: (← Literal.evalAll rest)

end

/-! ## Custom casts -/

/-- The number that a text of one to seventeen digits writes. -/
def parseDigits (s : String) : Option Item :=
  if 1 ≤ s.length && s.length ≤ 17 && s.all Char.isDigit then
    some (.ofScalar (.int64 (Int64.ofNat (s.toList.foldl (fun n c => 10 * n + (c.toNat - 48)) 0))))
  else
    none

/-- What a custom cast makes of a terminal value. -/
def CastRule.apply (rule : CastRule) (v : Value) : Option Item :=
  match rule, v with
  | content type, v => v.downcast type
  | listOf type orEmpty, .list _ vs =>
      if (orEmpty || !vs.isEmpty) && vs.all (·.type = type) then some (.datum (.list vs)) else none
  | parse, .scalar _ (.staticText s) | parse, .scalar _ (.ownedText s) => parseDigits s
  | any, _ => some .unit
  | layered, v => if v.isLayer then some .unit else none
  | _, _ => none

/-! ## The host of a script -/

/-- The host of a script: custom casts and predicates are noted once they are evaluated. -/
def host (ev : Evaluators) : Host SitedCast SitedPredicate Run where
  world := return (← get).world
  convert cast v := do
    match cast with
    | .content type => return v.downcast type
    | .custom cast =>
      let item := cast.rule.apply v
      Run.note (.cast cast.site item.isSome)
      return item
  holds check item := do
    match check with
    | .equals expected => return item.same expected
    | .custom p =>
      let out ← ev.holds p.rule item
      Run.note (.predicate p.site out)
      return out
  fresh := Run.fresh
  emit := Run.tell
  depth := ev.depth

/-- Wraps an item with the handle of a case.  The item has to be of a kind the handle takes. -/
def wrapWith (ev : Evaluators) (c : Case SitedCast SitedPredicate) (item : Option Item) :
    Run (Option Union) :=
  match c.recogniser, item with
  | .literal _, _ => c.wrap (host ev) .unit
  | .ofType type _, some item =>
      if item.type = type then c.wrap (host ev) item
      else do throw (.mistyped (type.name (← get).setting.home))
  | .byCast .., some item => c.wrap (host ev) item
  | .nested .., some (.union u) => c.wrap (host ev) (.union u)
  | _, _ => throw (.mistyped "argument of a case")

end CaseUnion.Script
