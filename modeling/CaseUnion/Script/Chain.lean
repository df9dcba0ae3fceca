import CaseUnion.Script.Program

/-!
# Chains over an optional item

A chain starts from an optional item and applies the vocabulary of optional results to it, link by
link.  Each link leaves a new state and may answer something.
-/

namespace CaseUnion.Script

/-- A link of a chain. -/
inductive Link where
  | getOrThrow
  /-- A round trip through another notation for the same thing. -/
  | roundTrip
  | presence
  | asRef
  | orElse (e : Expr)
  | orSet (e : Expr)
  | runSome (e : Expr)
  | letSome (e : Expr)
  /-- The item of an expression, if a predicate holds of the item before. -/
  | flatMap (e : Expr) (p : Predicate)
  | alsoSome
  | takeIf (p : Predicate)
  | takeUnless (p : Predicate)
  | flattenIn
  | flattenNone
  /-- The item within an optional item that is there if a predicate holds. -/
  | nestWhen (p : Predicate)
  | iterate
  | eq (literal : Option Literal)

/-- What a link answers. -/
inductive LinkAnswer where
  | item (item : Item)
  | missing (error : Optional.EmptyError)
  | presence (isSome isNone : Bool)
  | optional (item : Option Item)
  /-- An item, and whether the fallback had to be asked for it. -/
  | fallback (item : Item) (called : Bool)
  | saw (item : Item)
  | items (items : List Item)
  | flag (b : Bool)

/-- The state after a link, and what it answered. -/
structure LinkReport where
  /-- The optional item that the next link starts from. -/
  state : Option Item
  /-- What the link answered, if anything. -/
  answer : Option LinkAnswer

variable (ev : Evaluators)

/-- The item of an expression over another item. -/
def exprOver (e : Expr) (item : Item) : Run Item := ev.expr ⟨some item, none⟩ e

/-- The item there is, or that of an expression. -/
def orElse (e : Expr) (x : Option Item) : Run Item :=
  match x with
  | some item => pure item
  | none => ev.expr {} e

/-- The item there is, if a predicate holds of it. -/
def keepIf (p : Predicate) (x : Option Item) : Run (Option Item) := do
  let kept ← x.mapM (ev.holds p)
  return Optional.takeIf (fun _ => kept.getD false) x

/-- The item there is, if a predicate does not hold of it. -/
def keepUnless (p : Predicate) (x : Option Item) : Run (Option Item) := do
  let dropped ← x.mapM (ev.holds p)
  return Optional.takeUnless (fun _ => dropped.getD false) x

/-- Equality of optional items. -/
def sameOptional : Option Item → Option Item → Bool
  | some x, some y => x.same y
  | none, none => true
  | _, _ => false

/-- Runs one link on an optional item. -/
def Link.run (link : Link) (x : Option Item) : Run LinkReport :=
  match link with
  | .getOrThrow =>
    match Optional.getOrThrow x with
    | .ok item => pure ⟨x, some (.item item)⟩
    | .error error => pure ⟨x, some (.missing error)⟩
  | .roundTrip => pure ⟨x, none⟩
  | .presence => pure ⟨x, some (.presence x.isSome x.isNone)⟩
  | .asRef => pure ⟨x, some (.optional x)⟩
  | .orElse e => return ⟨x, some (.fallback (← Script.orElse ev e x) x.isNone)⟩
  | .orSet e => return ⟨some (← Script.orElse ev e x), none⟩
  | .runSome e => return ⟨x, some (.optional (← x.mapM (exprOver ev e)))⟩
  | .letSome e => return ⟨← x.mapM (exprOver ev e), none⟩
  | .flatMap e p =>
    match x with
    | none => pure ⟨none, none⟩
    | some item => do
      if ← ev.holds p item then return ⟨some (← exprOver ev e item), none⟩
      else return ⟨none, none⟩
  | .alsoSome => pure ⟨x, x.map .saw⟩
  | .takeIf p => return ⟨← keepIf ev p x, none⟩
  | .takeUnless p => return ⟨← keepUnless ev p x, none⟩
  | .flattenIn => pure ⟨(some x).join, none⟩
  | .flattenNone => pure ⟨(none : Option (Option Item)).join, none⟩
  | .nestWhen p => return ⟨(some (← keepIf ev p x)).join, none⟩
  | .iterate => pure ⟨x, some (.items x.toList)⟩
  | .eq l => do
    let y ← l.mapM Literal.eval
    return ⟨x, some (.flag (sameOptional x y))⟩

/-- Runs links one after another. -/
def runLinks (x : Option Item) : List Link → Run (List LinkReport)
  | [] => pure []
  | link :: rest => do
    let report ← link.run ev x
    return report :: (← runLinks report.state rest)

/-- The reports of a chain from a literal, or from nothing. -/
def runChain (setting : Setting) (start : Option Literal) (links : List Link) :
    Except Fault (List LinkReport) :=
  (do runLinks (evaluators depthLimit) (← start.mapM Literal.eval) links : Run _).run' { setting }

/-! ## Order -/

/-- How two neighbours of a list of optional numbers compare. -/
structure Neighbours where
  /-- Their order. -/
  order : Ordering
  /-- Whether they are equal. -/
  same : Bool
  /-- Whether the first comes before the second. -/
  less : Bool
  /-- The first of the two, written out. -/
  text : String

/-- What the order of optional values makes of a list of optional numbers. -/
structure OrderReport where
  /-- How each number compares with the next. -/
  pairs : List Neighbours
  /-- The numbers in order. -/
  sorted : List (Option Int64)
  /-- The last of them in order. -/
  greatest : Option Int64

/-- The layout of an optional number. -/
def optionalLayout : Option Int64 → Text.Layout
  | some n => .tuple "Some" [.word (toString n.toInt)]
  | none => .word "None"

/-- The comparison of an optional number with the next. -/
def Neighbours.of (x y : Option Int64) : Neighbours where
  order := Optional.compareBy compare x y
  same := x = y
  less := (Optional.compareBy compare x y).isLT
  text := (optionalLayout x).inline

/-- The report on a list of optional numbers. -/
def OrderReport.of (xs : List (Option Int64)) : OrderReport where
  pairs := List.zipWith Neighbours.of xs xs.tail
  sorted := Optional.sortBy compare xs
  greatest := Optional.maxBy compare xs

/-! ## Flows -/

/-- What mapping a flow of items gives. -/
structure FlowReport where
  /-- The flow before. -/
  flow : Flow Item
  /-- Whether it gives up the pass. -/
  isHalt : Bool
  /-- The flow after. -/
  mapped : Flow Item
  /-- How often the map was applied. -/
  calls : Nat
  /-- Whether the flow is the same before and after. -/
  same : Bool

/-- Maps a flow of an item by an expression. -/
def runFlow (setting : Setting) (form : Flow Literal) (e : Expr) : Except Fault FlowReport :=
  (do
    let flow : Flow Item ← match form with
      | .value l => do pure (.value (← l.eval))
      | .skip => pure .skip
      | .halt => pure .halt
    let results ← flow.value?.mapM (exprOver (evaluators depthLimit) e)
    let mapped := match results with
      | some result => flow.map fun _ => result
      | none => flow
    return ⟨flow, flow.isHalt, mapped, results.toList.length, flow.same Item.same mapped⟩ :
      Run FlowReport).run' { setting }

end CaseUnion.Script
