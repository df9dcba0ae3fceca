import CaseUnion.Pass
import CaseUnion.Proofs.Memoisation

/-!
# The outcome of a pass

Clauses are run one after another, each on the state that the one before it left.  The outcome of a
pass can be told without that state.  A pass goes on from clause to clause with a current union
until a clause stops it (`Pass.untilStop`), and where it stopped decides the result
(`Reached.conclude`).  If it was stopped with a result, that is the result.  If it was broken
without one, the first otherwise clause that comes after makes the result.

Both ways are programs in the monad of the bodies, and they are the same program
(`Pass.runAll_outcome`).  So nothing depends on what bodies do.  They may fail, read and change a
state, or pause.  In a broken pass all clauses can be left out but the first otherwise clause, and
that one, too, in a pass that has a result.
-/

namespace CaseUnion

variable {C P R : Type} {m : Type → Type}

/-! ## Turns -/

/-- What a clause does to a pass that nothing has stopped. -/
inductive Turn (R : Type) where
  /-- The pass goes on with a union. -/
  | goOn (current : Union)
  /-- The pass stops, with a result or without. -/
  | stop (result : Option R)

/-- What a body that ran on a union does to a pass, where `use` says what a value does. -/
def Flow.turn {T : Type} (u : Union) (use : T → Turn R) : Flow T → Turn R
  | value x => use x
  | skip => .goOn u
  | halt => .stop none

/-- The state that a turn leaves. -/
def Turn.apply (s : PassState R) : Turn R → PassState R
  | goOn current => { s with current }
  | stop result => { s with result, broken := true }

/-- The body of an otherwise clause. -/
def Clause.otherwise? : Clause C P m R → Option (Union → m R)
  | .otherwise body => some body
  | .accept .. | .change .. | .execute .. => none

/-- Whether a clause is an otherwise clause. -/
def Clause.isOtherwise (clause : Clause C P m R) : Bool := clause.otherwise?.isSome

namespace PassState

/-- Nothing has stopped the pass. -/
structure Open (s : PassState R) : Prop where
  not_broken : s.broken = false
  no_result : s.result = none

/-- Notes whether a clause is an otherwise clause. -/
def see (s : PassState R) (clause : Clause C P m R) : PassState R :=
  { s with otherwiseSeen := s.otherwiseSeen || clause.isOtherwise }

theorem see_of_not_otherwise {s : PassState R} {clause : Clause C P m R}
    (h : clause.isOtherwise = false) : s.see clause = s := by
  simp [see, h]

theorem settle_eq_apply {s : PassState R} (hs : s.Open) {T : Type} (flow : Flow T)
    {use : PassState R → T → PassState R} {turn : T → Turn R}
    (huse : ∀ x, use s x = (turn x).apply s) :
    s.settle flow use = (flow.turn s.current turn).apply s := by
  cases flow with
  | value x => exact huse x
  | skip => rfl
  | halt => simp [settle, Flow.turn, Turn.apply, hs.no_result]

end PassState

namespace Pass

variable [Monad m] (host : Host C P m)

/-- The item a clause fires with on a union: that of its case, and only the literal if it has
one. -/
def fires (u : Union) (c : Case C P) (only : Option Item) : m (Option Item) := do
  return (← c.unwrap host u).filter fun item => only.all item.same

/-- What a clause that runs its body if it fires does to a pass. -/
def attempt {T : Type} (u : Union) (c : Case C P) (only : Option Item)
    (body : Union → Item → m (Flow T)) (use : T → Turn R) : m (Turn R) := do
  match ← fires host u c only with
  | some item => return (← body u item).turn u use
  | none => return .goOn u

/-- What a clause does to a pass with a current union. -/
def turn (u : Union) : Clause C P m R → m (Turn R)
  | .accept c only body => attempt host u c only body fun result => .stop (some result)
  | .change c only body => attempt host u c only body .goOn
  | .execute c only body => attempt host u c only body fun _ => .goOn u
  | .otherwise body => return .stop (some (← body u))

end Pass

/-! ## Where a pass stops -/

/-- Where a pass has got to when it stops or runs out of clauses. -/
structure Reached (R : Type) where
  current : Union
  /-- The position of the clause that stopped the pass, and the result that it made. -/
  stop : Option (Nat × Option R)

namespace Reached

/-- The same place among the clauses when one more comes first. -/
def later (reached : Reached R) : Reached R :=
  { reached with stop := reached.stop.map fun (position, result) => (position + 1, result) }

@[simp] theorem later_current (reached : Reached R) :
    reached.later.current = reached.current := rfl

@[simp] theorem isSome_later_stop (reached : Reached R) :
    reached.later.stop.isSome = reached.stop.isSome :=
  Option.isSome_map

end Reached

section Conclusion

variable [Monad m] (host : Host C P m)

namespace Pass

/-- Goes on from clause to clause until one stops the pass. -/
def untilStop (u : Union) : List (Clause C P m R) → m (Reached R)
  | [] => return ⟨u, none⟩
  | clause :: rest => do
    match ← turn host u clause with
    | .goOn next => return (← untilStop next rest).later
    | .stop result => return ⟨u, some (0, result)⟩

/-- The result of a pass that was stopped: the one it was stopped with, or else what the first
otherwise clause of those that are left makes of the current union. -/
def settled (u : Union) (result : Option R) (left : List (Clause C P m R)) : m (Option R) :=
  match result, left.findSome? Clause.otherwise? with
  | some result, _ => return some result
  | none, some body => return some (← body u)
  | none, none => return none

end Pass

/-- The result of a pass that has got to some place among its clauses. -/
def Reached.conclude (reached : Reached R) (clauses : List (Clause C P m R)) : m (Option R) :=
  match reached.stop with
  | some (position, result) => Pass.settled reached.current result (clauses.drop (position + 1))
  | none => return none

@[simp] theorem Reached.conclude_later (reached : Reached R) (clause : Clause C P m R)
    (rest : List (Clause C P m R)) :
    reached.later.conclude (clause :: rest) = reached.conclude rest := by
  obtain ⟨current, stop⟩ := reached
  cases stop <;> rfl

namespace Pass

@[simp] theorem settled_some (u : Union) (result : R) (left : List (Clause C P m R)) :
    settled u (some result) left = pure (some result) := rfl

@[simp] theorem settled_nil (u : Union) (result : Option R) :
    settled u result ([] : List (Clause C P m R)) = pure result := by
  cases result <;> rfl

theorem settled_otherwise (u : Union) (body : Union → m R) (rest : List (Clause C P m R)) :
    settled u none (.otherwise body :: rest) = do return some (← body u) := rfl

theorem settled_cons (u : Union) (result : Option R) {clause : Clause C P m R}
    (hclause : clause.isOtherwise = false) (rest : List (Clause C P m R)) :
    settled u result (clause :: rest) = settled u result rest := by
  have hnone : clause.otherwise? = none := by simpa [Clause.isOtherwise] using hclause
  cases result with
  | none => simp only [settled, List.findSome?_cons, hnone]
  | some result => rfl

/-- Only the first otherwise clause that is left matters. -/
theorem settled_find? (u : Union) (result : Option R) (left : List (Clause C P m R)) :
    settled u result (left.find? Clause.isOtherwise).toList = settled u result left := by
  induction left with
  | nil => rfl
  | cons clause rest ih =>
      cases hclause : clause.isOtherwise with
      | false => rw [List.find?_cons_of_neg (by simp [hclause]), ih, settled_cons u result hclause]
      | true =>
          rw [List.find?_cons_of_pos hclause]
          cases clause with
          | otherwise body => cases result <;> rfl
          | _ => cases hclause

end Pass

end Conclusion

/-! ## Running the clauses -/

namespace Pass

variable [Monad m] (host : Host C P m) {s : PassState R}

theorem runAll_cons (clause : Clause C P m R) (rest : List (Clause C P m R)) (s : PassState R) :
    runAll host (clause :: rest) s = run host clause s >>= runAll host rest :=
  List.foldlM_cons

variable [LawfulMonad m]

theorem apply_attempt (hs : s.Open) (c : Case C P) (only : Option Item) {T : Type}
    (body : Union → Item → m (Flow T)) {use : PassState R → T → PassState R} {turn : T → Turn R}
    (huse : ∀ x, use s x = (turn x).apply s) :
    Turn.apply s <$> attempt host s.current c only body turn = do
      match ← firing host s c only with
      | some item => return s.settle (← body s.current item) use
      | none => return s := by
  have hfiring : firing host s c only = fires host s.current c only := by
    simp [firing, fires, hs.not_broken]
  rw [hfiring, attempt, map_bind]
  refine bind_congr fun item => ?_
  cases item with
  | none => simp [Turn.apply]
  | some item => simp [PassState.settle_eq_apply hs _ huse]

/-- A clause of a pass that nothing has stopped has its turn. -/
theorem run_of_open (hs : s.Open) (clause : Clause C P m R) :
    run host clause s = Turn.apply (s.see clause) <$> turn host s.current clause := by
  cases clause with
  | otherwise body =>
      simp [run, turn, hs.no_result, Turn.apply, PassState.see, PassState.finishWith,
        Clause.isOtherwise, Clause.otherwise?]
  | accept c only body | change c only body | execute c only body =>
      rw [PassState.see_of_not_otherwise rfl]
      exact (apply_attempt host hs c only body fun _ => rfl).symm

/-- A clause of a broken pass does nothing, unless it is an otherwise clause. -/
theorem run_of_broken (hs : s.broken = true) {clause : Clause C P m R}
    (hclause : clause.isOtherwise = false) : run host clause s = pure s := by
  cases clause with
  | otherwise body => cases hclause
  | _ => simp [run, firing, hs]

omit [LawfulMonad m] in
theorem run_otherwise_of_result {result : R} (hresult : s.result = some result)
    (body : Union → m R) :
    run host (.otherwise body) s = pure { s with otherwiseSeen := true } := by
  simp [run, hresult]

theorem run_otherwise_of_none (hresult : s.result = none) (body : Union → m R) :
    run host (.otherwise body) s = do
      return PassState.finishWith { s with otherwiseSeen := true } (← body s.current) := by
  simp [run, hresult]

/-- What a pass leaves that was broken. -/
theorem runAll_of_broken (hs : s.broken = true) (clauses : List (Clause C P m R)) :
    runAll host clauses s = do
      let result ← settled s.current s.result clauses
      return { s with
        result, otherwiseSeen := s.otherwiseSeen || clauses.any Clause.isOtherwise } := by
  induction clauses generalizing s with
  | nil => simp [runAll]
  | cons clause rest ih =>
      rw [runAll_cons]
      cases clause with
      | otherwise body =>
          cases hresult : s.result with
          | some result =>
              have hrest := ih (s := { s with otherwiseSeen := true }) hs
              rw [run_otherwise_of_result host hresult, pure_bind, hrest]
              simp [hresult, Clause.isOtherwise, Clause.otherwise?]
          | none =>
              rw [run_otherwise_of_none host hresult, settled_otherwise]
              simp only [bind_assoc, pure_bind]
              refine bind_congr fun result => ?_
              rw [ih rfl]
              simp [PassState.finishWith, hs, Clause.isOtherwise, Clause.otherwise?]
      | _ =>
          rw [run_of_broken host hs rfl, pure_bind, ih hs, settled_cons _ _ rfl]
          simp [Clause.isOtherwise, Clause.otherwise?]

/-- What a pass leaves that nothing has stopped yet. -/
theorem runAll_of_open (hs : s.Open) (clauses : List (Clause C P m R)) :
    runAll host clauses s = do
      let reached ← untilStop host s.current clauses
      let result ← reached.conclude clauses
      return {
        current := reached.current, result, broken := reached.stop.isSome,
        otherwiseSeen := s.otherwiseSeen || clauses.any Clause.isOtherwise } := by
  induction clauses generalizing s with
  | nil =>
      obtain ⟨current, result, broken, seen⟩ := s
      obtain ⟨rfl, rfl⟩ := hs
      simp [runAll, untilStop, Reached.conclude]
  | cons clause rest ih =>
      rw [runAll_cons, run_of_open host hs, untilStop, map_eq_pure_bind]
      simp only [bind_assoc, pure_bind]
      refine bind_congr fun turn => ?_
      cases turn with
      | goOn next =>
          have hopen : (Turn.apply (s.see clause) (.goOn next)).Open :=
            ⟨hs.not_broken, hs.no_result⟩
          rw [ih hopen]
          simp [PassState.see, Turn.apply, Bool.or_assoc]
      | stop result =>
          rw [runAll_of_broken host rfl]
          simp [PassState.see, Turn.apply, Reached.conclude, Bool.or_assoc]

/-- The outcome of a pass over some clauses, whatever their bodies do.  It goes on from clause to
clause until one stops it, and concludes from where it was stopped: with the result of the clause
that stopped it, or else with what the first otherwise clause after it makes of the union that was
current there.  Without either there is no result.

Once a pass is broken, running the clauses that are left is running the first otherwise clause among
them and no other.  So nothing more is tested, and no body is run but that of one otherwise clause.
In a broken pass that has a result nothing is run at all. -/
theorem runAll_outcome (clauses : List (Clause C P m R)) :
    (∀ u, runAll host clauses { current := u } = do
      let reached ← untilStop host u clauses
      let result ← reached.conclude clauses
      return {
        current := reached.current, result, broken := reached.stop.isSome,
        otherwiseSeen := clauses.any Clause.isOtherwise }) ∧
    (∀ s : PassState R, s.broken = true →
      runAll host clauses s = runAll host (clauses.find? Clause.isOtherwise).toList s) ∧
    ∀ s : PassState R, s.broken = true → s.result.isSome = true →
      runAll host clauses s
        = pure { s with otherwiseSeen := s.otherwiseSeen || clauses.any Clause.isOtherwise } := by
  refine ⟨fun u => ?_, fun s hs => ?_, fun s hs hresult => ?_⟩
  · rw [runAll_of_open host ⟨rfl, rfl⟩]
    simp
  · have hsome : (clauses.find? Clause.isOtherwise).isSome = clauses.any Clause.isOtherwise :=
      List.isSome_find?
    have hany : (clauses.find? Clause.isOtherwise).toList.any Clause.isOtherwise
        = clauses.any Clause.isOtherwise := by
      rw [← hsome]
      cases hfind : clauses.find? Clause.isOtherwise with
      | none => rfl
      | some clause => simp [List.find?_some hfind]
    rw [runAll_of_broken host hs, runAll_of_broken host hs, settled_find?, hany]
  · obtain ⟨result, hresult⟩ := Option.isSome_iff_exists.mp hresult
    rw [runAll_of_broken host hs, hresult]
    simp

/-- A pass whose bodies write down that they ran, while its executor writes down each pause.  The
first clause has another literal, the second changes the union, the third breaks the pass, and of
the clauses after it only the first otherwise clause runs.  It is the only one that runs in a pass
that was broken before, and none does in one that has a result. -/
theorem leaf_outcome :
    let c : Case Empty Bool := ⟨"Leaf", "int", 0, ⟨"leaf"⟩, .ofType (.datum .int32) none⟩
    let host := (Host.observed World.diamond World.constantMeaning 7
      fun _ => (pure () : StateM (List String) Unit)).async
    let say : String → Async (StateM (List String)) Unit := fun what _ => modify (· ++ [what])
    let u : Union := ⟨⟨"leaf"⟩, .scalar ⟨0, 0⟩ (.int32 5)⟩
    let changed : Union := ⟨⟨"leaf"⟩, .scalar ⟨1, 0⟩ (.int32 6)⟩
    let clauses : List (Clause Empty Bool (Async (StateM (List String))) String) := [
      .accept c (some (.ofScalar (.int32 6))) fun _ _ => do say "accept"; return .value "six",
      .change c none fun _ _ => do Async.pause; say "change"; return .value changed,
      .execute c (some (.ofScalar (.int32 6))) fun _ _ => do say "execute"; return .halt,
      .accept c none fun _ _ => do say "late"; return .value "late",
      .otherwise fun _ => do Async.pause; say "otherwise"; return "fallback",
      .otherwise fun _ => do say "again"; return "again"]
    let elsewhere := say "elsewhere" (pure ⟨⟩)
    (runAll host clauses { current := u } elsewhere).run []
        = pure (⟨changed, some "fallback", true, true⟩,
            ["elsewhere", "change", "execute", "elsewhere", "otherwise"]) ∧
      (runAll host clauses { current := u, broken := true } elsewhere).run []
        = pure (⟨u, some "fallback", true, true⟩, ["elsewhere", "otherwise"]) ∧
      runAll host clauses { current := u, result := some "known", broken := true }
        = pure ⟨u, some "known", true, true⟩ := by
  intro c host say u changed clauses elsewhere
  obtain ⟨houtcome, hbroken, hresult⟩ := runAll_outcome host clauses
  refine ⟨?_, ?_, hresult _ rfl rfl⟩
  · rw [houtcome]
    rfl
  · rw [hbroken _ rfl]
    rfl

end Pass

end CaseUnion
