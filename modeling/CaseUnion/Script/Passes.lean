import CaseUnion.Script.Expression

/-!
# Passes of a script

A pass of a script runs its clauses one by one and keeps what it looks like after each.  With
asynchronous entry points the bodies pause once before they do anything, those of clauses with a
literal excepted.
-/

namespace CaseUnion.Script

variable (ev : Evaluators)

/-- The value of the body of a clause: its steps, what it says, and how it returns. -/
def Body.run {R : Type} (scope : Scope) (read : Item → Run R) (unit : Run R) :
    Body → Run (Flow R)
  | .mk steps say ret e => do
    runNested ev steps
    if let some said := say then
      Run.note (.say (← ev.expr scope said))
    match ret with
    | .skip => return .skip
    | .halt => return .halt
    | .unit => return .value (← unit)
    | .value =>
      match e with
      | some e => return .value (← read (← ev.expr scope e))
      | none => return .value (← unit)

/-- Where a value is needed but the body gives none. -/
def noValue {R : Type} : Run R := throw (.mistyped "value of a body")

/-- Takes an item for nothing. -/
def discard (_ : Item) : Run Unit := pure ()

variable {n : Type → Type} [Monad n] [MonadLiftT Run n] {R : Type}

/-- The clause of a form.  A body starts with `start`, except that of a clause with a literal, and
`read` turns items into results. -/
def ClauseForm.clause (start : n PUnit) (read : Item → Run R) (unit : Run R) (form : ClauseForm) :
    Run (Clause SitedCast SitedPredicate n R) :=
  match form with
  | .otherwise e =>
    return .otherwise fun u => do
      start
      liftM (m := Run) do
        let item ← ev.expr ⟨some (.union u), some u⟩ e
        Run.note (.otherwise item)
        read item
  | .matching action name only body => do
    let c ← Run.case name
    let only ← only.mapM Literal.eval
    let start := if only.isSome then pure ⟨⟩ else start
    match action with
    | .accept =>
      return .accept c only fun u item => do
        start
        liftM (m := Run) (body.run ev ⟨some item, some u⟩ read unit)
    | .change =>
      return .change c only fun u item => do
        start
        liftM (m := Run) (body.run ev ⟨some item, some u⟩ Run.asUnion noValue)
    | .execute =>
      return .execute c only fun u item => do
        start
        liftM (m := Run) (body.run ev ⟨some item, some u⟩ (fun _ => pure ()) (pure ()))

/-- Keeps what a pass looks like. -/
def observe (s : PassState R) : Run PUnit :=
  modify fun state =>
    { state with statuses := state.statuses.push ⟨s.result.isSome, s.broken, s.current⟩ }

/-- Runs the clauses of a pass, keeping what it looks like after each. -/
def runClauses (host : Host SitedCast SitedPredicate n) (start : n PUnit) (read : Item → Run R)
    (unit : Run R) (forms : List ClauseForm) (s : PassState R) : n (PassState R) :=
  forms.foldlM (fun s form => do
    let clause ← liftM (form.clause ev start read unit)
    let s ← Pass.run host clause s
    liftM (observe s)
    return s) s

/-- Runs a body and gives what the passes within it looked like, apart from those outside. -/
def withStatuses {α : Type} (body : Run α) : Run (α × List PassStatus) := do
  let outer := (← get).statuses
  modify fun s => { s with statuses := #[] }
  let result ← body
  let inner := (← get).statuses
  modify fun s => { s with statuses := outer }
  return (result, inner.toList)

/-- Runs a pass without pauses. -/
def runSync (kind : PassKind) (u : Union) (default : Option Item) (forms : List ClauseForm) :
    Run (Except MissingOtherwise Item) :=
  match kind with
  | .mapOr => do
    let some default := default | throw (.mistyped "default")
    return .ok (← Pass.mapOr (host ev) u default
      (runClauses ev (host ev) (pure ⟨⟩) pure noValue forms))
  | .map => Pass.map (host ev) u (runClauses ev (host ev) (pure ⟨⟩) pure noValue forms)
  | .trans =>
    return .ok (.union (← Pass.trans (host ev) u
      (runClauses ev (host ev) (pure ⟨⟩) Run.asUnion noValue forms)))
  | .alter =>
    return .ok (.union (← Pass.alter (host ev) u
      (runClauses ev (host ev) (pure ⟨⟩) discard (pure ()) forms)))

/-- Runs a pass whose bodies pause once. -/
def runAsync (kind : PassKind) (u : Union) (default : Option Item) (forms : List ClauseForm) :
    Run (Except MissingOtherwise Item) :=
  match kind with
  | .mapOr => do
    let some default := default | throw (.mistyped "default")
    return .ok (← (Pass.mapOrAsync (host ev) u default
      (runClauses ev (host ev).async Async.pause pure noValue forms)).block)
  | .map =>
    (Pass.mapAsync (host ev) u
      (runClauses ev (host ev).async Async.pause pure noValue forms)).block
  | .trans =>
    return .ok (.union (← (Pass.transAsync (host ev) u
      (runClauses ev (host ev).async Async.pause Run.asUnion noValue forms)).block))
  | .alter =>
    return .ok (.union (← (Pass.alterAsync (host ev) u
      (runClauses ev (host ev).async Async.pause discard (pure ()) forms)).block))

/-- Runs a pass and reports on it. -/
def PassForm.run (scope : Scope) : PassForm → Run PassReport
  | .mk kind e forms default isAsync => do
    let u ← Run.asUnion (← ev.expr scope e)
    let default ← default.mapM Literal.eval
    let (result, states) ← withStatuses
      (if isAsync then runAsync ev kind u default forms else runSync ev kind u default forms)
    return ⟨result, states⟩

end CaseUnion.Script
