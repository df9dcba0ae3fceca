import CaseUnion.Proofs.Hosts
import CaseUnion.Proofs.Reentry

/-!
# Programs that change the world

A program may register cases between two calls, so its world is a state.  The host of such a program
reads the world as it is.  A walk reads it again and again but leaves it as it is, so in a world `w`
it does what it does where `w` is at rest (`standing_living`), and a registry gives the answer that
it has in `w` (`living_wrapValue`).
-/

namespace CaseUnion

variable {C P : Type} {m : Type → Type} [Monad m]

/-- A world that programs may change, where casts and predicates are plain functions and whatever
the host is asked to do is noted first. -/
def Host.living (μ : Meaning C P) (note : Effect C P → m Unit) (fresh : m Nat) (depth : Nat) :
    Host C P (StateT (World C P) m) where
  world := get
  convert cast v := liftM (do
    note (.cast cast v)
    return μ.cast cast v : m (Option Item))
  holds check item := liftM (do
    note (.check check item)
    return μ.check check item : m Bool)
  fresh := liftM fresh
  emit event := liftM (note (.told event))
  depth := depth

/-! ## Programs that leave the world as it is -/

section Standing

variable [LawfulMonad m] (w : World C P)

/-- In a world a program does what another one does, and leaves the world as it is. -/
def standing : Likeness (StateT (World C P) m) m where
  Alike x y := x.run w = (fun a => (a, w)) <$> y
  alike_pure a := by simp
  alike_bind h hf := by simp [h, hf]

/-- The host of programs that may change the world acts like that of the world at rest. -/
theorem standing_living (μ : Meaning C P) (note : Effect C P → m Unit) (fresh : m Nat)
    (depth block : Nat) :
    (standing w).Hosts (Host.living μ note fresh depth) (Host.observed w μ block note) where
  world := by simp [standing, Host.living, Host.observed]
  convert cast v := by simp [standing, Host.living, Host.observed]
  holds check item := by simp [standing, Host.living, Host.observed]
  emit event := by simp [standing, Host.living, Host.observed]

end Standing

/-! ## What a registry answers in the world as it is -/

section Answers

variable [LawfulMonad m] {w : World C P} (μ : Meaning C P) (note : Effect C P → m Unit)
  (fresh : m Nat) {depth : Nat}

/-- A registry that exists gives the answer that it has in the world as it is. -/
theorem living_wrapValue (hw : w.Sound) (hdepth : w.size ≤ depth) {id : RegistryId}
    (hid : id < w.size) (v : Value) :
    ((Host.living μ note fresh depth).wrapValue id v).run w = (do
      let block ← fresh
      replay note w v.terminal ((w.request hw.wellFounded μ block v.terminal id).kept [])
      return (((Host.ofWorld w μ block).wrapValue id v).run, w)) := by
  have hanswer : ∀ block,
      (((Host.living μ note fresh depth).answer block v.terminal depth id).run' ∅).run w = (do
        replay note w v.terminal ((w.request hw.wellFounded μ block v.terminal id).kept [])
        return (w.unmemoised hw.wellFounded μ block v.terminal id, w)) := by
    intro block
    have hfollows := (follows_answer hw μ block v.terminal note depth id []
      (World.path_singleton hid) (by simpa using hdepth)).run'_empty
    have hliving := standing_living w μ note fresh depth block
    have hstanding := hliving.answer block v.terminal depth id ∅
    rw [StateT.run'_eq] at hfollows ⊢
    rw [StateT.run_map, hstanding, Functor.map_map]
    have hpair := congrArg (fun x : m (Option Union) => (fun answer => (answer, w)) <$> x) hfollows
    simpa [Functor.map_map] using hpair
  simp only [hw.wrapValue_eq_unmemoised, ← hanswer]
  simp [Host.wrapValue, Host.walk, Host.living]

end Answers

end CaseUnion
