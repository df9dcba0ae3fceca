import CaseUnion.Script.Morphs

/-!
# Steps of a script

What each step does and answers.
-/

namespace CaseUnion.Script

variable (ev : Evaluators)

/-! ## Registries -/

/-- Makes a registry and tells the observer. -/
def createRegistry (label : String) (flavor : Flavor) (tag : Tag) : Run RegistryId := do
  let w := (← get).world
  modify fun s => { s with world := w.create label flavor tag }
  Run.tell (.created label flavor w.size)
  return w.size

/-- Adds a case to a registry and tells the observer. -/
def registerCase (id : RegistryId) (name : String)
    (recogniser : Recogniser SitedCast SitedPredicate) :
    Run (Except RegistrationError (Case SitedCast SitedPredicate)) := do
  match (← get).world.register id name recogniser with
  | .error error =>
    Run.tell (.refused error)
    return .error error
  | .ok (w, c) =>
    modify fun s => { s with world := w }
    Run.tell (.registered c.info)
    return .ok c

/-- Seals a registry and tells the observer if it was not sealed before. -/
def sealOff (id : RegistryId) : Run PUnit := do
  let r := (← get).world.registry id
  unless r.isSealed do
    modify fun s => { s with world := s.world.sealRegistry id }
    Run.tell (.sealedRegistry r.label r.size)

/-- The recogniser of a declaration for a case at a site. -/
def Declaration.recogniser (site : String) :
    Declaration → Run (Recogniser SitedCast SitedPredicate)
  | .literal l => return .literal (← l.eval)
  | .ofType type guard => return .ofType type (guard.map (⟨site, ·⟩))
  | .byCast cast guard => return .byCast ⟨site, cast⟩ (guard.map (⟨site, ·⟩))
  | .nested child guard => return .nested (← Run.registryId child) (guard.map (⟨site, ·⟩))

/-- The answer of a registration. -/
def declareCase (id : RegistryId) (name : String) (what : Declaration) (as? : Option String) :
    Run Result := do
  let site := ((← get).world.registry id).label ++ "." ++ name
  match ← registerCase id name (← what.recogniser site) with
  | .error error => return .refused error (← Run.spelled error)
  | .ok c =>
    Run.keepCase as? c
    return .registered c.info

/-! ## Values and unions -/

/-- The value of a literal, stored in a block of its own. -/
def newValue (l : Literal) : Run Value := do (host ev).store (← l.eval)

/-- Keeps a value and answers with it. -/
def keptValue (as? : Option String) (v : Value) : Run Result := do
  Run.keepValue as? v
  return .value v

/-- Keeps a union and answers with it.  If asked for, a missing union is an error. -/
def keptUnion (orThrow : Bool) (as? : Option String) (u : Option Union) : Run Result := do
  Run.keepUnion as? u
  match orThrow, Optional.getOrThrow u with
  | true, .error error => return .missing error
  | _, _ => return .union u

/-- Keeps the union of a pass, if it resulted in one. -/
def keepOutcome (as? : Option String) (report : PassReport) : Run PUnit :=
  match report.result with
  | .ok item => Run.keepUnion as? item.union?
  | .error _ => pure ⟨⟩

/-! ## One step -/

/-- Whether a step names the type of the late unions. -/
def Step.namesLate (setting : Setting) : Step → Bool
  | .lateRegistry _ | .lateWrap .. => true
  | .register _ _ (.ofType type _) _ | .isWrapper type | .isType _ type =>
      type = .union setting.late
  | _ => false

/-- Does one step. -/
def Step.run (step : Step) : Run Result := do
  let setting := (← get).setting
  if step.namesLate setting then
    modify fun s => { s with lateNamed := true }
  match step with
  | .registry label flavor as? => do
    let id ← createRegistry label flavor setting.common
    Run.keepRegistry as? id
    return .created id
  | .cloneRegistry name as? => do
    let id ← Run.registryId name
    Run.keepRegistry as? id
    return .cloned id true
  | .register name caseName what as? => do
    declareCase (← Run.registryId name) caseName what as?
  | .sealRegistry name => do
    let id ← Run.registryId name
    let before := ((← get).world.registry id).isSealed
    sealOff id
    return .sealing before ((← get).world.registry id).isSealed
  | .registryInfo name => do
    let id ← Run.registryId name
    return .registry (.of id ((← get).world.registry id))
  | .caseNamed name caseName => do
    let id ← Run.registryId name
    return .info (((← get).world.registry id).caseNamed caseName)
  | .which name union => do
    let id ← Run.registryId name
    return .info (← (host ev).which id (← Run.union union))
  | .lateRegistry label => do
    let id ← createRegistry label .matching setting.late
    let _ ← registerCase id "INT" (.ofType (.datum .int32) none)
    modify fun s => { s with late := some id }
    return .created id
  | .lateWrap n as? => do
    let some id := (← get).late | throw (.unbound .registry "late")
    let some u ← (host ev).wrap id (.ofScalar (.int32 n)) | throw (.mistyped "late union")
    keptValue as? (← (host ev).store (.union u))
  | .isWrapper type => return .flag (type.isWrapper (← get).world.wrappers)
  | .wrap name l orThrow as? => do
    let id ← Run.registryId name
    keptUnion orThrow as? (← (host ev).wrap id (← l.eval))
  | .canWrap name l => do
    let id ← Run.registryId name
    return .flag (← (host ev).canWrap id (← l.eval))
  | .caseWrap name l orThrow as? => do
    let c ← Run.case name
    keptUnion orThrow as? (← wrapWith ev c (← l.mapM Literal.eval))
  | .rewrap name union as? => do
    let c ← Run.case name
    keptUnion false as? (← c.rewrap (host ev) (← Run.union union))
  | .cast name l => do
    let c ← Run.case name
    return .optional (← c.cast (host ev) (← newValue ev l))
  | .unwrap name union as? => do
    let c ← Run.case name
    let item ← c.unwrap (host ev) (← Run.union union)
    Run.keepUnion as? (item.bind Item.union?)
    return .optional item
  | .satisfies name union => do
    let c ← Run.case name
    return .flag (← c.accepts (host ev) (← Run.union union))
  | .caseInfo name => do
    let c ← Run.case name
    return .handle (.of (← get).world c)
  | .cloneCase name as? => do
    let c ← Run.case name
    Run.keepCase as? c
    return .registered c.info
  | .sameInfo first second => do
    return .flag ((← Run.case first).info = (← Run.case second).info)
  | .value l as? => do
    let v ← newValue ev l
    Run.keepValue as? v
    return .valueInfo (.of setting.home v)
  | .isType l type => do
    let v ← newValue ev l
    return .typed (v.type = type) (v.downcast type).isSome (v.downcast type)
  | .layer union as? => do keptValue as? (← Run.union union).inner
  | .terminal union as? => do keptValue as? (← Run.union union).terminal
  | .layerWrap l as? => do
    let v ← newValue ev l
    Run.keepValue as? (← (host ev).store (.layer v))
    return .layer v
  | .unionInfo union => do
    return .unionInfo (.of (← Run.union union) (← Run.fresh) (← Run.fresh))
  | .sameUnion first second => do
    return .flag ((← Run.union first).same (← Run.union second))
  | .sameValue first second => do
    let v ← newValue ev first
    let w ← newValue ev second
    return .comparison (.of v w)
  | .pass form as? => do
    let report ← form.run ev {}
    keepOutcome as? report
    return .pass report
  | .query union q => do
    q.run ev (← Run.union union)
  | .morph union steps result isAsync => do
    return .item (← morphOf ev (← Run.union union) steps result isAsync)
  | .morphSelf union steps as? => do
    keptUnion false as? (some (← (← Run.union union).morphSelf (runMorph ev steps)))

end CaseUnion.Script
