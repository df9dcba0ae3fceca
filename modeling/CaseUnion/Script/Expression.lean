import CaseUnion.Script.State

/-!
# Predicates and expressions

Both read an item.  Numbers, texts, birds and lists have a *measure*: the number itself, the count
of characters, the age, the length.  Other items have none, and no comparison of measures holds of
them.
-/

namespace CaseUnion.Script

/-- The measure of an item. -/
def measure : Item → Option Int
  | .datum (.list vs) => some vs.length
  | .datum (.scalar s) =>
    match s with
    | .int32 n => some n.toInt
    | .int64 n => some n.toInt
    | .nat8 n => some n.toNat
    | .nat64 n => some n.toNat
    | .staticText s | .ownedText s => some s.length
    | .bird _ age => some age.toInt
    | .float64 _ | .bool _ | .unit | .zebra _ => none
  | _ => none

/-! ## Predicates -/

section Predicates

variable (ev : Evaluators)

/-- Whether all predicates hold of an item, up to the first that does not. -/
def holdAll (item : Item) : List Predicate → Run Bool
  | [] => pure true
  | p :: rest => do if ← ev.holds p item then holdAll item rest else return false

/-- Whether one of several predicates holds of an item, up to the first that does. -/
def holdAny (item : Item) : List Predicate → Run Bool
  | [] => pure false
  | p :: rest => do if ← ev.holds p item then return true else holdAny item rest

/-- Runs nested steps and notes what they answer. -/
def runNested (steps : List Step) : Run PUnit :=
  steps.forM fun step => do Run.note (.did (← ev.step step))

/-- Whether a predicate holds of an item. -/
def Predicate.holds (p : Predicate) (item : Item) : Run Bool :=
  match p with
  | .always => pure true
  | .never => pure false
  | .gt n => pure ((measure item).any (n < ·))
  | .lt n => pure ((measure item).any (· < n))
  | .even => pure ((measure item).any (· % 2 == 0))
  | .eq literal => return item.same (← literal.eval)
  | .not p => return !(← ev.holds p item)
  | .and ps => holdAll ev item ps
  | .or ps => holdAny ev item ps
  | .satisfies name => do
    let c ← Run.case name
    match item with
    | .union u => c.accepts (host ev) u
    | _ => pure false
  | .inner name p => do
    let c ← Run.case name
    match item with
    | .union u =>
      match ← c.unwrap (host ev) u with
      | some seen => ev.holds p seen
      | none => return false
    | _ => return false
  | .fits name => do (host ev).canWrap (← Run.registryId name) item
  | .after steps p => do
    runNested ev steps
    ev.holds p item

end Predicates

/-! ## Expressions -/

/-- Adds to a number or to the age of a bird, modulo the width.  Other items stay. -/
def addTo (n : Int) : Item → Item
  | .datum (.scalar (.int32 x)) => .ofScalar (.int32 (x + Int32.ofInt n))
  | .datum (.scalar (.int64 x)) => .ofScalar (.int64 (x + Int64.ofInt n))
  | .datum (.scalar (.bird name age)) => .ofScalar (.bird name (age + Int64.ofInt n))
  | item => item

/-- Appends to a text or to the name of an animal, which gives a text.  Other items stay. -/
def append (suffix : String) : Item → Item
  | .datum (.scalar (.staticText s)) | .datum (.scalar (.ownedText s))
  | .datum (.scalar (.bird s _)) | .datum (.scalar (.zebra s)) =>
      .ofScalar (.ownedText (s ++ suffix))
  | item => item

variable (ev : Evaluators) (runPass : Scope → PassForm → Run PassReport)

/-- The item of the fallback of an expression. -/
def fallback (scope : Scope) : Option Expr → Run Item
  | some e => ev.expr scope e
  | none => throw (.mistyped "fallback")

/-- The item of an expression, given how passes are run. -/
def Expr.eval (scope : Scope) (e : Expr) : Run Item :=
  match e with
  | .item => scope.item.elim (throw (.mistyped "item")) pure
  | .current => scope.current.elim (throw (.mistyped "current union")) fun u => pure (.union u)
  | .literal l => l.eval
  | .union name => return .union (← Run.union name)
  | .add e n => return addTo n (← ev.expr scope e)
  | .cat e s => return append s (← ev.expr scope e)
  | .size e => return .ofScalar (.int64 (Int64.ofInt ((measure (← ev.expr scope e)).getD (-1))))
  | .ite p yes no => do
    let chosen ← match scope.item with
      | some x => ev.holds p x
      | none => pure false
    if chosen then ev.expr scope yes else ev.expr scope no
  | .wrap name e other => do
    let c ← Run.case name
    let x ← e.mapM (ev.expr scope)
    match ← wrapWith ev c x with
    | some u => return .union u
    | none => fallback ev scope other
  | .wrapIn name e other => do
    let id ← Run.registryId name
    let x ← ev.expr scope e
    match ← (host ev).wrap id x with
    | some u => return .union u
    | none => ev.expr scope other
  | .unwrap name e other => do
    let c ← Run.case name
    let u ← Run.asUnion (← ev.expr scope e)
    match ← c.unwrap (host ev) u with
    | some x => return x
    | none => ev.expr scope other
  | .satisfies name e => do
    let c ← Run.case name
    let u ← Run.asUnion (← ev.expr scope e)
    return .ofScalar (.bool (← c.accepts (host ev) u))
  | .pass form => do
    let report ← runPass scope form
    Run.note (.innerPass report)
    match report.result with
    | .ok x => return x
    | .error _ => return .unit

end CaseUnion.Script
