import CaseUnion.Morph
import CaseUnion.Proofs.Outcome

/-!
# Passes by one-case primitives

A pass keeps a state of its own, with a result and flags, and asks of each clause whether it may
still run.  A morph keeps nothing but a current union, and a query keeps nothing at all.  Where
every body returns a value they come to the same.  Change clauses are conditional changes, one after
another (`runAll_changing`).  Accept clauses are queries, tried until one gives something
(`runAll_accepting`); those that come later find the pass broken and do nothing.

The equations are between programs, in any lawful monad.  So both sides ask the same handles and run
the same bodies, in one order and equally often, and what a pass does besides is to report its end.
-/

namespace CaseUnion

variable {C P R : Type} {m : Type → Type} [Monad m]

/-! ## Clauses whose bodies return a value -/

namespace Clause

/-- Replaces the current union by what a function makes of the item. -/
def changing (c : Case C P) (make : Item → m Union) : Clause C P m R :=
  .change c none fun _ item => return .value (← make item)

/-- Ends the pass with what a function makes of the item. -/
def accepting (c : Case C P) (make : Item → m R) : Clause C P m R :=
  .accept c none fun _ item => return .value (← make item)

end Clause

/-- What the first query gives that gives something.  The queries are tried in order, and the ones
that come later are not tried.  If none gives anything, a function makes the result of the union. -/
def Union.firstLet (host : Host C P m) (u : Union) (fallback : Union → m R) :
    List (Case C P × (Item → m R)) → m R
  | [] => fallback u
  | (c, make) :: rest => do
    match ← u.letWhen host c make with
    | some result => return result
    | none => firstLet host u fallback rest

namespace Pass

variable [LawfulMonad m] (host : Host C P m) {s : PassState R}

/-- A clause for no literal in particular fires with what its case sees. -/
theorem firing_none (hs : s.broken = false) (c : Case C P) :
    firing host s c none = c.unwrap host s.current := by
  have hall : (Option.filter fun _ : Item => true) = id := by
    funext item
    cases item <;> rfl
  simp [firing, hs, hall]

/-! ## Change clauses and morphs -/

/-- A change clause whose body returns a value is a conditional change. -/
theorem run_changing (hs : s.broken = false) (c : Case C P) (make : Item → m Union) :
    run host (.changing c make) s = do
      let (_, next) ← (Morph.changeWhen host c make).run s.current
      return s.replace next := by
  simp only [Clause.changing, run, firing_none host hs, Morph.changeWhen, StateT.run, bind_assoc]
  refine bind_congr fun item => ?_
  cases item with
  | none => simp [PassState.replace]
  | some item => simp [PassState.settle]

/-- Change clauses are conditional changes, one after another. -/
theorem runAll_changing (hs : s.broken = false) (pairs : List (Case C P × (Item → m Union)))
    (rest : List (Clause C P m R)) :
    runAll host (pairs.map (fun pair => .changing pair.1 pair.2) ++ rest) s
      = (forM pairs fun pair => Morph.changeWhen host pair.1 pair.2).run s.current
          >>= fun changed => runAll host rest (s.replace changed.2) := by
  induction pairs generalizing s with
  | nil => simp [PassState.replace]
  | cons pair pairs ih =>
      rw [List.map_cons, List.cons_append, runAll_cons, run_changing host hs, List.forM_cons,
        StateT.run_bind]
      simp only [bind_assoc, pure_bind]
      refine bind_congr fun changed => ?_
      have hreplace : (s.replace changed.2).broken = false := hs
      rw [ih hreplace]
      rfl

/-! ## Accept clauses and queries -/

/-- An accept clause whose body returns a value is a query that ends the pass if it gives
something. -/
theorem run_accepting (hs : s.broken = false) (c : Case C P) (make : Item → m R) :
    run host (.accepting c make) s = do
      match ← s.current.letWhen host c make with
      | some result => return s.finishWith result
      | none => return s := by
  simp only [Clause.accepting, run, firing_none host hs, Union.letWhen, bind_assoc]
  refine bind_congr fun item => ?_
  cases item with
  | none => simp
  | some item => simp [PassState.settle]

/-- Accept clauses and an otherwise clause at their end give what the first query gives that gives
something, or else what the otherwise clause makes of the union. -/
theorem runAll_accepting (hs : s.Open) (pairs : List (Case C P × (Item → m R)))
    (fallback : Union → m R) :
    runAll host (pairs.map (fun pair => .accepting pair.1 pair.2) ++ [.otherwise fallback]) s = do
      let result ← s.current.firstLet host fallback pairs
      return { s with result := some result, broken := true, otherwiseSeen := true } := by
  induction pairs with
  | nil =>
      simp [runAll, run_otherwise_of_none host hs.no_result, PassState.finishWith, Union.firstLet]
  | cons pair pairs ih =>
      rw [List.map_cons, List.cons_append, runAll_cons, run_accepting host hs.not_broken,
        Union.firstLet]
      simp only [bind_assoc]
      refine bind_congr fun given => ?_
      cases given with
      | none => simpa using ih
      | some result =>
          have hbroken : (s.finishWith result).broken = true := rfl
          have hresult : (s.finishWith result).result = some result := rfl
          rw [pure_bind, runAll_of_broken host hbroken, hresult, settled_some]
          simp [PassState.finishWith, Clause.isOtherwise, Clause.otherwise?]

/-! ## Passes -/

/-- Passes agree with the one-case primitives.  Change clauses and then the current union are what a
morph makes of the union by conditional changes.  Accept clauses and then a fallback are what the
first query gives that gives something, or else the fallback.  Both ways run the same casts, checks
and bodies in one order, and the pass reports its end besides. -/
theorem primitives_agree (u : Union) :
    (∀ pairs : List (Case C P × (Item → m Union)),
      trans host u (runAll host
          (pairs.map (fun pair => .changing pair.1 pair.2) ++ [.otherwise pure])) = do
        let changed ← u.morphSelf (forM pairs fun pair => Morph.changeWhen host pair.1 pair.2)
        host.emit (.passFinished "trans" true true true)
        return changed) ∧
    ∀ (R : Type) (pairs : List (Case C P × (Item → m R))) (fallback : Union → m R),
      map host u (runAll host
          (pairs.map (fun pair => .accepting pair.1 pair.2) ++ [.otherwise fallback])) = do
        let result ← u.firstLet host fallback pairs
        host.emit (.passFinished "map" true true true)
        return .ok result := by
  refine ⟨fun pairs => ?_, fun R pairs fallback => ?_⟩
  · rw [trans, runAll_changing host rfl]
    simp [runAll, run, finish, Union.morphSelf, PassState.replace, PassState.finishWith,
      PassKind.text]
  · rw [map, runAll_accepting host ⟨rfl, rfl⟩]
    simp [finish, PassKind.text]

/-- Passes whose bodies write down that they ran, with an observer who writes down each cast and
each pass that ends.  The first change makes a text of the number, so the second one does not run,
but the third one does, which is for texts.  The first query is for texts and does not run.  The
second one does, and so the case of the third one is not asked. -/
theorem leaf_primitives_agree :
    let int : Case Empty Bool := ⟨"Leaf", "int", 0, ⟨"leaf"⟩, .ofType (.datum .int32) none⟩
    let text : Case Empty Bool := ⟨"Leaf", "text", 1, ⟨"leaf"⟩, .ofType (.datum .ownedText) none⟩
    let say : String → StateM (List String) Unit := fun what => modify (· ++ [what])
    let note : Effect Empty Bool → StateM (List String) Unit
      | .cast .. => say "cast"
      | .check .. => say "check"
      | .told _ => say "told"
    let host := Host.observed World.diamond World.constantMeaning 7 note
    let u : Union := ⟨⟨"leaf"⟩, .scalar ⟨0, 0⟩ (.int32 5)⟩
    let written : Union := ⟨⟨"leaf"⟩, .scalar ⟨1, 0⟩ (.ownedText "five")⟩
    let last : Union := ⟨⟨"leaf"⟩, .scalar ⟨2, 0⟩ (.bool true)⟩
    let changes : List (Case Empty Bool × (Item → StateM (List String) Union)) := [
      (int, fun _ => do say "write"; return written), (int, fun _ => do say "again"; return u),
      (text, fun _ => do say "last"; return last)]
    let queries : List (Case Empty Bool × (Item → StateM (List String) String)) := [
      (text, fun _ => do say "text"; return "text"), (int, fun _ => do say "int"; return "int"),
      (int, fun _ => do say "late"; return "late")]
    (trans host u (runAll host
        (changes.map (fun pair => .changing pair.1 pair.2) ++ [.otherwise pure]))).run []
        = pure (last, ["cast", "write", "cast", "cast", "last", "told"]) ∧
      (u.morphSelf (forM changes fun pair => Morph.changeWhen host pair.1 pair.2)).run []
        = pure (last, ["cast", "write", "cast", "cast", "last"]) ∧
      (map host u (runAll host (queries.map (fun pair => .accepting pair.1 pair.2)
        ++ [.otherwise fun _ => do say "otherwise"; return "otherwise"]))).run []
        = pure (.ok "int", ["cast", "cast", "int", "told"]) := by
  intro int text say note host u written last changes queries
  obtain ⟨htrans, hmap⟩ := primitives_agree host u
  refine ⟨?_, rfl, ?_⟩
  · rw [htrans]
    rfl
  · rw [hmap]
    rfl

end Pass

end CaseUnion
