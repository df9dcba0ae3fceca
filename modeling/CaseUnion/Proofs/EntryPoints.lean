import CaseUnion.Proofs.Hosts
import CaseUnion.Proofs.Outcome

/-!
# What the entry points make of a pass

How a pass ends is decided by its first otherwise clause and the clauses before it
(`Pass.outcome`).  Among the latter only accept clauses record a value.  If one did, that is the
result.  If none did, the otherwise clause makes it, whether the pass was broken by then or not.  If
there is no otherwise clause either, the pass ends without a result.

All entry points run the same pass and read the same answer off its end, the result or the error of
having none (`Pass.entry_points_agree`).  `map` returns the answer itself.  `mapOr` and `trans`
return the result, or in place of the error a default and the union that the pass started from, and
`alter` returns that union in any case.

*Pauses.*  An asynchronous pass pauses in its bodies only, since casts and checks never pause.  So
what it does, given what its executor does at every pause, is what the pass does whose bodies have
that done in their place (`Clause.resumed`).  That casts never pause holds of every host, by
`Likeness.Hosts.cast`.
-/

namespace CaseUnion

variable {C P R : Type} {m : Type → Type} [Monad m]

/-! ## Asynchronous clauses -/

/-- A clause whose body has done at every pause what its executor does there. -/
def Clause.resumed (meanwhile : m PUnit) : Clause C P (Async m) R → Clause C P m R
  | .accept c only body => .accept c only fun u item => (body u item).run meanwhile
  | .change c only body => .change c only fun u item => (body u item).run meanwhile
  | .execute c only body => .execute c only fun u item => (body u item).run meanwhile
  | .otherwise body => .otherwise fun u => (body u).run meanwhile

section Async

variable (host : Host C P m) (meanwhile : m PUnit)

/-- An asynchronous computation does what another one does, if its executor does a given thing
meanwhile. -/
def resumption : Likeness (Async m) m where
  Alike x y := x.run meanwhile = y
  alike_pure _ := rfl
  alike_bind h hf := by simp [h, hf]

theorem resumption_async : (resumption meanwhile).Hosts host.async host where
  world := rfl
  convert _ _ := rfl
  holds _ _ := rfl
  emit _ := rfl

variable [LawfulMonad m]

/-- Cases never pause. -/
theorem Case.run_unwrap_async (c : Case C P) (u : Union) :
    (c.unwrap host.async u).run meanwhile = c.unwrap host u :=
  (resumption_async host meanwhile).cast rfl rfl c u.terminal

namespace Pass

theorem run_firing_async (s : PassState R) (c : Case C P) (only : Option Item) :
    (firing host.async s c only).run meanwhile = firing host s c only := by
  unfold firing
  split
  · rfl
  · simp [Case.run_unwrap_async]

theorem run_run_async (clause : Clause C P (Async m) R) (s : PassState R) :
    (run host.async clause s).run meanwhile = run host (clause.resumed meanwhile) s := by
  cases clause with
  | otherwise body =>
      simp only [run, Clause.resumed]
      split
      · rfl
      · simp
  | accept c only body | change c only body | execute c only body =>
      simp only [run, Clause.resumed, ReaderT.run_bind, run_firing_async]
      refine bind_congr fun item => ?_
      cases item with
      | none => rfl
      | some item => simp

/-- An asynchronous pass does what the pass over the resumed clauses does. -/
theorem run_runAll_async (clauses : List (Clause C P (Async m) R)) (s : PassState R) :
    (runAll host.async clauses s).run meanwhile
      = runAll host (clauses.map (.resumed meanwhile)) s := by
  induction clauses generalizing s with
  | nil => rfl
  | cons clause rest ih =>
      rw [List.map_cons, runAll_cons, runAll_cons, ReaderT.run_bind, run_run_async]
      exact bind_congr fun s => ih s

/-! An asynchronous entry point does what its twin does over the resumed clauses. -/

theorem run_mapAsync (u : Union) (clauses : List (Clause C P (Async m) R)) :
    (mapAsync host u (runAll host.async clauses)).run meanwhile
      = map host u (runAll host (clauses.map (.resumed meanwhile))) := by
  simp only [mapAsync, map, ReaderT.run_bind, run_runAll_async]
  refine bind_congr fun s => bind_congr fun result => ?_
  cases result <;> rfl

theorem run_mapOrAsync (u : Union) (default : R) (clauses : List (Clause C P (Async m) R)) :
    (mapOrAsync host u default (runAll host.async clauses)).run meanwhile
      = mapOr host u default (runAll host (clauses.map (.resumed meanwhile))) := by
  simp only [mapOrAsync, mapOr, ReaderT.run_bind, run_runAll_async]
  rfl

theorem run_transAsync (u : Union) (clauses : List (Clause C P (Async m) Union)) :
    (transAsync host u (runAll host.async clauses)).run meanwhile
      = trans host u (runAll host (clauses.map (.resumed meanwhile))) := by
  simp only [transAsync, trans, ReaderT.run_bind, run_runAll_async]
  rfl

theorem run_alterAsync (u : Union) (clauses : List (Clause C P (Async m) Unit)) :
    (alterAsync host u (runAll host.async clauses)).run meanwhile
      = alter host u (runAll host (clauses.map (.resumed meanwhile))) := by
  simp only [alterAsync, alter, ReaderT.run_bind, run_runAll_async]
  rfl

end Pass

end Async

/-! ## The answer of a pass -/

/-- The result at the end of a pass, or the error of having none. -/
def PassState.answer (s : PassState R) : Except MissingOtherwise R :=
  match s.result with
  | some value => .ok value
  | none => .error .mk

/-- The result that the clause made which stopped the pass. -/
def Reached.recorded (reached : Reached R) : Option R := reached.stop.bind Prod.snd

namespace Pass

/-- The clauses before the first otherwise clause.  Only accept clauses among them make a result. -/
def leading (clauses : List (Clause C P m R)) : List (Clause C P m R) :=
  clauses.takeWhile fun clause => !clause.isOtherwise

/-- Tells the observer of an entry point that a pass has come to its end, and that of `map` that
there is no result. -/
def report (host : Host C P m) (kind : PassKind) (s : PassState R) : m Unit := do
  host.emit (.passFinished kind.text s.result.isSome s.broken s.otherwiseSeen)
  if kind = .map ∧ s.result.isNone then host.emit (.unresolvedMap s.otherwiseSeen)

/-- The state at the end of a pass.  Its result is the value that an accept clause recorded before
the first otherwise clause, or else what that clause makes of the union that is current there.
Without either there is no result. -/
def outcome (host : Host C P m) (u : Union) (clauses : List (Clause C P m R)) :
    m (PassState R) := do
  let reached ← untilStop host u (leading clauses)
  match reached.recorded, clauses.findSome? Clause.otherwise? with
  | some value, fallback => return ⟨reached.current, some value, true, fallback.isSome⟩
  | none, some body => return ⟨reached.current, some (← body reached.current), true, true⟩
  | none, none => return ⟨reached.current, none, reached.stop.isSome, false⟩

omit [Monad m] in
/-- A list of clauses has no otherwise clause, or goes on after its leading clauses with the first
one. -/
theorem leading_or_split (clauses : List (Clause C P m R)) :
    (clauses.findSome? Clause.otherwise? = none ∧ leading clauses = clauses) ∨
      ∃ body rest, clauses.findSome? Clause.otherwise? = some body ∧
        clauses = leading clauses ++ .otherwise body :: rest := by
  induction clauses with
  | nil => exact .inl ⟨rfl, rfl⟩
  | cons clause rest ih =>
      cases clause with
      | otherwise body => exact .inr ⟨body, rest, rfl, rfl⟩
      | accept | change | execute =>
          rcases ih with ⟨hnone, hleading⟩ | ⟨body, later, hsome, hsplit⟩
          · exact .inl ⟨hnone, congrArg _ hleading⟩
          · exact .inr ⟨body, later, hsome, congrArg _ hsplit⟩

omit [Monad m] in
theorem isOtherwise_of_mem_leading {clauses : List (Clause C P m R)} {clause : Clause C P m R}
    (h : clause ∈ leading clauses) : clause.isOtherwise = false := by
  simpa using List.all_eq_true.mp List.all_takeWhile clause h

variable [LawfulMonad m] (host : Host C P m) (u : Union) (clauses : List (Clause C P m R))

/-- The leading clauses leave what the clause made that stopped them, if one did. -/
theorem runAll_leading :
    runAll host (leading clauses) { current := u } = do
      let reached ← untilStop host u (leading clauses)
      return ⟨reached.current, reached.recorded, reached.stop.isSome, false⟩ := by
  have hany : (leading clauses).any Clause.isOtherwise = false :=
    List.any_eq_false.mpr fun clause h => by simp [isOtherwise_of_mem_leading h]
  have hconclude : ∀ reached : Reached R,
      reached.conclude (leading clauses) = pure reached.recorded := by
    rintro ⟨current, _ | ⟨position, _ | result⟩⟩
    · rfl
    · have hleft : ((leading clauses).drop (position + 1)).findSome? Clause.otherwise? = none :=
        List.findSome?_eq_none_iff.mpr fun clause h => by
          simpa [Clause.isOtherwise] using isOtherwise_of_mem_leading (List.mem_of_mem_drop h)
      simp [Reached.conclude, Reached.recorded, settled, hleft]
    · rfl
  rw [runAll_of_open host ⟨rfl, rfl⟩]
  simp [hconclude, hany]

/-- A pass runs its leading clauses and, if these leave no result, the first otherwise clause.  It
runs nothing after that. -/
theorem runAll_eq_outcome : runAll host clauses { current := u } = outcome host u clauses := by
  have hstopped : ∀ {reached : Reached R} {value : R}, reached.recorded = some value →
      reached.stop.isSome = true := by
    rintro ⟨current, _ | stop⟩ value hvalue
    · cases hvalue
    · rfl
  rcases leading_or_split clauses with ⟨hnone, hleading⟩ | ⟨body, rest, hsome, hsplit⟩
  · have hrun := runAll_leading host u clauses
    rw [hleading] at hrun
    rw [hrun, outcome, hleading, hnone]
    refine bind_congr fun reached => ?_
    cases hrecorded : reached.recorded with
    | some value => simp [hstopped hrecorded]
    | none => rfl
  · have happend : runAll host clauses { current := u }
        = runAll host (leading clauses) { current := u }
          >>= runAll host (.otherwise body :: rest) := by
      conv_lhs => rw [hsplit]
      exact List.foldlM_append
    rw [happend, runAll_leading, outcome, hsome, bind_assoc]
    refine bind_congr fun reached => ?_
    rw [pure_bind]
    cases hrecorded : reached.recorded with
    | some value =>
        rw [runAll_of_broken host (hstopped hrecorded)]
        simp [Clause.isOtherwise, Clause.otherwise?, hstopped hrecorded]
    | none =>
        rw [runAll_cons, run_otherwise_of_none host rfl, bind_assoc]
        refine bind_congr fun value => ?_
        rw [pure_bind, runAll_of_broken host rfl]
        simp [PassState.finishWith]

/-! ## Entry points -/

theorem map_runAll :
    map host u (runAll host clauses) = do
      let s ← outcome host u clauses
      report host .map s
      return s.answer := by
  rw [map, runAll_eq_outcome]
  refine bind_congr fun s => ?_
  cases hresult : s.result <;> simp [finish, report, PassState.answer, hresult]

theorem mapOr_runAll (default : R) :
    mapOr host u default (runAll host clauses) = do
      let s ← outcome host u clauses
      report host .mapOr s
      return s.answer.toOption.getD default := by
  rw [mapOr, runAll_eq_outcome]
  refine bind_congr fun s => ?_
  cases hresult : s.result <;> simp [finish, report, PassState.answer, hresult, Except.toOption]

theorem trans_runAll (clauses : List (Clause C P m Union)) :
    trans host u (runAll host clauses) = do
      let s ← outcome host u clauses
      report host .trans s
      return s.answer.toOption.getD u := by
  rw [trans, runAll_eq_outcome]
  refine bind_congr fun s => ?_
  cases hresult : s.result <;> simp [finish, report, PassState.answer, hresult, Except.toOption]

theorem alter_runAll (clauses : List (Clause C P m Unit)) :
    alter host u (runAll host clauses) = do
      let s ← outcome host u clauses
      report host .alter s
      return u := by
  rw [alter, runAll_eq_outcome]
  refine bind_congr fun s => ?_
  simp [finish, report]

/-- With an otherwise clause anywhere among the clauses, `map` is a result. -/
theorem exists_map_eq_ok (front : List (Clause C P m R)) (body : Union → m R)
    (back : List (Clause C P m R)) :
    ∃ made : m R, map host u (runAll host (front ++ .otherwise body :: back)) = .ok <$> made := by
  obtain ⟨first, hfirst⟩ : ∃ first,
      (front ++ .otherwise body :: back).findSome? Clause.otherwise? = some first := by
    refine Option.isSome_iff_exists.mp ?_
    rw [List.findSome?_isSome_iff]
    exact ⟨.otherwise body, by simp, rfl⟩
  refine ⟨do
    let reached ← untilStop host u (leading (front ++ .otherwise body :: back))
    let value ← reached.recorded.elim (first reached.current) pure
    report host .map ⟨reached.current, some value, true, true⟩
    return value, ?_⟩
  rw [map_runAll, outcome, hfirst, bind_assoc, map_bind]
  refine bind_congr fun reached => ?_
  cases reached.recorded <;> simp [PassState.answer]

/-- The entry points read one and the same answer off a pass, whatever its bodies do.  `map` returns
it.  So `map` is an error exactly if no accept clause recorded a value and there is no otherwise
clause, and with an otherwise clause anywhere among the clauses it is none.  `mapOr` returns a
default in place of the error, and `trans` the union that the pass started from, even if that is
not the current one any more.  `alter` returns that union in any case, after the same pass.

The asynchronous entry points return what the others do over the same clauses, each with its pauses
spent on what the executor does meanwhile. -/
theorem entry_points_agree :
    (∀ (R : Type) (clauses : List (Clause C P m R)),
      (map host u (runAll host clauses) = do
        let s ← outcome host u clauses
        report host .map s
        return s.answer) ∧
      ∀ default, mapOr host u default (runAll host clauses) = do
        let s ← outcome host u clauses
        report host .mapOr s
        return s.answer.toOption.getD default) ∧
    (∀ (R : Type) (front back : List (Clause C P m R)) (body : Union → m R), ∃ made : m R,
      map host u (runAll host (front ++ .otherwise body :: back)) = .ok <$> made) ∧
    (∀ clauses, trans host u (runAll host clauses) = do
      let s ← outcome host u clauses
      report host .trans s
      return s.answer.toOption.getD u) ∧
    (∀ clauses, alter host u (runAll host clauses) = do
      let s ← outcome host u clauses
      report host .alter s
      return u) ∧
    ∀ meanwhile : m PUnit,
      (∀ (R : Type) (clauses : List (Clause C P (Async m) R)),
        (mapAsync host u (runAll host.async clauses)).run meanwhile
          = map host u (runAll host (clauses.map (.resumed meanwhile))) ∧
        ∀ default, (mapOrAsync host u default (runAll host.async clauses)).run meanwhile
          = mapOr host u default (runAll host (clauses.map (.resumed meanwhile)))) ∧
      (∀ clauses, (transAsync host u (runAll host.async clauses)).run meanwhile
        = trans host u (runAll host (clauses.map (.resumed meanwhile)))) ∧
      ∀ clauses, (alterAsync host u (runAll host.async clauses)).run meanwhile
        = alter host u (runAll host (clauses.map (.resumed meanwhile))) := by
  refine ⟨fun R clauses => ⟨map_runAll host u clauses, mapOr_runAll host u clauses⟩,
    fun R front back body => exists_map_eq_ok host u front body back, trans_runAll host u,
    alter_runAll host u, fun meanwhile => ?_⟩
  exact ⟨fun R clauses => ⟨run_mapAsync host meanwhile u clauses,
      fun default => run_mapOrAsync host meanwhile u default clauses⟩,
    run_transAsync host meanwhile u, run_alterAsync host meanwhile u⟩

/-- Passes whose bodies write down that they ran, with an observer who writes down each report.  The
number is changed and then the pass is broken, so `map` is an error and `trans` returns the number
that the pass started from, not the changed one.  With an otherwise clause among the clauses after
the break `map` is its result.  `alter` accepts the changed number and returns the old one.  The
executor of the asynchronous pass writes down the pause. -/
theorem leaf_entry_points_agree :
    let c : Case Empty Bool := ⟨"Leaf", "int", 0, ⟨"leaf"⟩, .ofType (.datum .int32) none⟩
    let say : String → StateM (List String) Unit := fun what => modify (· ++ [what])
    let note : Effect Empty Bool → StateM (List String) Unit
      | .cast .. | .check .. => pure ()
      | .told _ => say "told"
    let host := Host.observed World.diamond World.constantMeaning 7 note
    let u : Union := ⟨⟨"leaf"⟩, .scalar ⟨0, 0⟩ (.int32 5)⟩
    let changed : Union := ⟨⟨"leaf"⟩, .scalar ⟨1, 0⟩ (.int32 6)⟩
    let early : List (Clause Empty Bool (StateM (List String)) Union) := [
      .change c none fun _ _ => do say "change"; return .value changed,
      .execute c none fun _ _ => do say "execute"; return .halt]
    let late : List (Clause Empty Bool (StateM (List String)) Union) := [
      .accept c none fun current _ => do say "accept"; return .value current,
      .otherwise fun current => do say "otherwise"; return current,
      .otherwise fun _ => do say "again"; return u]
    let silent : List (Clause Empty Bool (StateM (List String)) Unit) := [
      .change c none fun _ _ => do say "change"; return .value changed,
      .accept c (some (.ofScalar (.int32 6))) fun _ _ => do say "accept"; return .value ()]
    let pausing : List (Clause Empty Bool (Async (StateM (List String))) Union) := [
      .change c none fun _ _ => do Async.pause; say "change"; return .value changed,
      .execute c none fun _ _ => do say "execute"; return .halt]
    (map host u (runAll host early)).run []
        = pure (.error .mk, ["change", "execute", "told", "told"]) ∧
      (map host u (runAll host (early ++ late))).run []
        = pure (.ok changed, ["change", "execute", "otherwise", "told"]) ∧
      (trans host u (runAll host early)).run [] = pure (u, ["change", "execute", "told"]) ∧
      (alter host u (runAll host silent)).run [] = pure (u, ["change", "accept", "told"]) ∧
      ((transAsync host u (runAll host.async pausing)).run (say "elsewhere")).run []
        = pure (u, ["elsewhere", "change", "execute", "told"]) := by
  intro c say note host u changed early late silent pausing
  obtain ⟨hmap, -, htrans, halter, hasync⟩ := entry_points_agree host u
  obtain ⟨-, htransAsync, -⟩ := hasync (say "elsewhere")
  refine ⟨?_, ?_, ?_, ?_, ?_⟩
  · rw [(hmap Union early).1]
    rfl
  · rw [(hmap Union (early ++ late)).1]
    rfl
  · rw [htrans]
    rfl
  · rw [halter]
    rfl
  · rw [htransAsync]
    rfl

end Pass

end CaseUnion
