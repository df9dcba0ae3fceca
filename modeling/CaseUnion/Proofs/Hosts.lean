import CaseUnion.Handle

/-!
# Hosts that act alike

All that a walk does, its host does for it, and what it goes on with are the plain values that come
back.  So if two hosts act alike, each in a monad of its own, then so do the walks of the one and
the walks of the other, and with them the casts of cases.  What "alike" means is left open
(`Likeness`).  It may be any relation between the programs of the two monads that holds of plain
values and is kept by running one program after another.
-/

namespace CaseUnion

variable {C P : Type} {m n : Type → Type} [Monad m] [Monad n]

/-- A way for programs of two monads to be alike. -/
structure Likeness (m n : Type → Type) [Monad m] [Monad n] where
  Alike {α : Type} : m α → n α → Prop
  /-- A plain value is like itself. -/
  alike_pure {α : Type} (a : α) : Alike (pure a) (pure a)
  /-- Alike programs that go on alike are alike. -/
  alike_bind {α β : Type} {x : m α} {y : n α} {f : α → m β} {g : α → n β} :
    Alike x y → (∀ a, Alike (f a) (g a)) → Alike (x >>= f) (y >>= g)

namespace Likeness

variable (like : Likeness m n)

/-- Walks are alike if they are so from every memo. -/
def walk : Likeness (Walk m) (Walk n) where
  Alike x y := ∀ memo : Memo, like.Alike (x.run memo) (y.run memo)
  alike_pure a memo := like.alike_pure (a, memo)
  alike_bind h hf memo := like.alike_bind (h memo) fun out => hf out.1 out.2

theorem walk_get : like.walk.Alike get get := fun memo => like.alike_pure (memo, memo)

theorem walk_modify (f : Memo → Memo) : like.walk.Alike (modify f) (modify f) :=
  fun memo => like.alike_pure (PUnit.unit, f memo)

/-- What programs do alike, they do alike in a walk. -/
theorem walk_lift {α : Type} {x : m α} {y : n α} (h : like.Alike x y) :
    like.walk.Alike (liftM x) (liftM y) :=
  fun memo => like.alike_bind h fun a => like.alike_pure (a, memo)

/-- Two hosts act alike. -/
structure Hosts (host : Host C P m) (host' : Host C P n) : Prop where
  world : like.Alike host.world host'.world
  convert (cast : Cast C) (v : Value) : like.Alike (host.convert cast v) (host'.convert cast v)
  holds (check : Check P) (item : Item) :
    like.Alike (host.holds check item) (host'.holds check item)
  emit (event : Event) : like.Alike (host.emit event) (host'.emit event)

namespace Hosts

variable {like} {host : Host C P m} {host' : Host C P n} (h : like.Hosts host host')

include h

theorem registry (id : RegistryId) : like.Alike (host.registry id) (host'.registry id) :=
  like.alike_bind h.world fun w => like.alike_pure (w.registry id)

theorem passes (check : Option (Check P)) (item : Item) :
    like.Alike (host.passes check item) (host'.passes check item) := by
  cases check with
  | none => exact like.alike_pure true
  | some check => exact h.holds check item

theorem checked (check : Option (Check P)) (item : Option Item) :
    like.Alike (host.checked check item) (host'.checked check item) := by
  cases item with
  | none => exact like.alike_pure none
  | some item =>
      refine like.alike_bind (h.passes check item) fun passed => ?_
      cases passed with
      | false => exact like.alike_pure none
      | true => exact like.alike_pure (some item)

section Walk

variable {ask : RegistryId → Walk m (Option Union)} {ask' : RegistryId → Walk n (Option Union)}
  (hask : ∀ id, like.walk.Alike (ask id) (ask' id)) (terminal : Value)

include hask

theorem see (recogniser : Recogniser C P) :
    like.walk.Alike (host.see ask terminal recogniser) (host'.see ask' terminal recogniser) := by
  have hchecked := fun item => like.walk_lift (h.checked recogniser.check? item)
  cases hsource : recogniser.source with
  | cast cast =>
      simp only [Host.see, hsource]
      exact like.walk.alike_bind (like.walk_lift (h.convert cast terminal)) hchecked
  | registry child =>
      simp only [Host.see, hsource]
      exact like.walk.alike_bind (hask child) fun answer =>
        like.walk.alike_bind (like.walk.alike_pure _) hchecked

theorem firstMatch : ∀ cs : List (Case C P),
    like.walk.Alike (host.firstMatch ask terminal cs) (host'.firstMatch ask' terminal cs)
  | [] => like.walk.alike_pure none
  | c :: rest => by
      refine like.walk.alike_bind (h.see hask terminal c.recogniser) fun seen => ?_
      cases seen with
      | none => exact firstMatch rest
      | some item => exact like.walk.alike_pure (some (c, item))

theorem discriminate (r : Registry C P) :
    like.walk.Alike (host.discriminate ask terminal r) (host'.discriminate ask' terminal r) := by
  refine like.walk.alike_bind (h.firstMatch hask terminal r.cases) fun found => ?_
  cases found with
  | none => exact like.walk.alike_pure none
  | some found =>
      exact like.walk.alike_bind (like.walk_lift (h.emit _)) fun _ =>
        like.walk.alike_pure (some found)

end Walk

/-- Registries are asked alike. -/
theorem answer (block : Nat) (terminal : Value) (depth : Nat) : ∀ id : RegistryId,
    like.walk.Alike (host.answer block terminal depth id)
      (host'.answer block terminal depth id) := by
  induction depth with
  | zero => exact fun id => like.walk.alike_pure none
  | succ depth ih =>
      intro id
      refine like.walk.alike_bind (like.walk_lift (h.registry id)) fun r => ?_
      refine like.walk.alike_bind like.walk_get fun memo => ?_
      have htold := fun event => like.walk_lift (h.emit event)
      cases memo[id]? with
      | none =>
          refine like.walk.alike_bind (like.walk_modify _) fun _ => ?_
          refine like.walk.alike_bind (h.discriminate ih terminal r) fun found => ?_
          exact like.walk.alike_bind (like.walk_modify _) fun _ => like.walk.alike_pure _
      | some slot =>
          cases slot with
          | done known =>
              exact like.walk.alike_bind (htold _) fun _ => like.walk.alike_pure known
          | pending => exact like.walk.alike_bind (htold _) fun _ => like.walk.alike_pure none

variable [LawfulMonad m] [LawfulMonad n] (hfresh : like.Alike host.fresh host'.fresh)
  (hdepth : host.depth = host'.depth)

include hfresh hdepth

/-- Cases cast alike, where new blocks come alike and the depth is the same. -/
theorem cast (c : Case C P) (v : Value) : like.Alike (c.cast host v) (c.cast host' v) := by
  unfold Case.cast Host.walk
  refine like.alike_bind hfresh fun block => ?_
  rw [StateT.run'_eq, StateT.run'_eq, map_eq_pure_bind, map_eq_pure_bind, hdepth]
  have hsee := h.see (h.answer block v.terminal host'.depth) v.terminal c.recogniser
  exact like.alike_bind (hsee ∅) fun out => like.alike_pure out.1

end Hosts

end Likeness

end CaseUnion
