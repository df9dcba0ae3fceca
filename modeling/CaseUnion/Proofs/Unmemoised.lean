import CaseUnion.Handle
import CaseUnion.Proofs.History
import Mathlib.Data.List.Basic

/-!
# Discrimination without a memo

What a registry answers, as a recursion over nesting and nothing else: no memo, no bound on the
depth, no effects.  The cases are tried in the order of declaration and the first that recognises
the terminal value wins.  A case by a cast keeps the terminal value itself.  A nested case asks its
registry, from scratch each time, and keeps the layer of the union that comes back.  The winner's
value gets one layer of the registry.

The recursion ends because nesting is well-founded, which every reachable world has
(`World.Reachable.sound`).  `World.unmemoised` takes that as its argument, and `unmemoised_eq` is
its equation.
-/

namespace CaseUnion

variable {C P : Type}

/-! ## One case and one registry -/

section Cases

variable (μ : Meaning C P) (answers : RegistryId → Option Union) (block : Nat) (terminal : Value)

/-- Whether an item passes a guard.  Without a guard everything passes. -/
def Meaning.guards (guard : Option P) (item : Item) : Bool := guard.all (μ.holds · item)

/-- The item that a recogniser sees in a terminal value, where `answers` are those of the
registries. -/
def Recogniser.sees : Recogniser C P → Option Item
  | literal expected => (terminal.downcast expected.type).filter (·.same expected)
  | ofType type guard => (terminal.downcast type).filter (μ.guards guard)
  | byCast cast guard => (μ.convert cast terminal).filter (μ.guards guard)
  | nested child guard => ((answers child).map .union).filter (μ.guards guard)

/-- The item that the source of a recogniser gives. -/
def Recogniser.sourced (recogniser : Recogniser C P) : Option Item :=
  match recogniser.source with
  | .cast cast => μ.cast cast terminal
  | .registry child => (answers child).map .union

/-- What a case keeps of a terminal value that it recognises. -/
def Recogniser.keeps : Recogniser C P → Option Value
  | nested child guard =>
      ((answers child).filter fun u => μ.guards guard (.union u)).map (·.toValue block)
  | recogniser => (recogniser.sees μ answers terminal).map fun _ => terminal

/-- The union of the first case that recognises a terminal value. -/
def Registry.answer (r : Registry C P) : Option Union :=
  (r.cases.findSome? fun c => c.recogniser.keeps μ answers block terminal).map (Union.mk r.tag)

/-- The first case that recognises a terminal value, with the item it sees. -/
def Registry.firstSeen (r : Registry C P) : Option (Case C P × Item) :=
  r.cases.findSome? fun c => (c.recogniser.sees μ answers terminal).map fun item => (c, item)

end Cases

section Lemmas

variable {μ : Meaning C P} {answers answers' : RegistryId → Option Union} {block : Nat}
  {terminal : Value}

/-- A recogniser works in two steps, its source and its check. -/
theorem Recogniser.sees_eq (recogniser : Recogniser C P) :
    recogniser.sees μ answers terminal
      = (recogniser.sourced μ answers terminal).filter
          fun item => recogniser.check?.all (μ.check · item) := by
  have hguard : ∀ (guard : Option P) (item : Item),
      (guard.map Check.custom).all (μ.check · item) = μ.guards guard item := by
    intro guard item
    cases guard <;> rfl
  cases recogniser with
  | literal expected => rfl
  | ofType type guard => simp [sees, sourced, source, check?, Meaning.cast, hguard]
  | byCast cast guard => simp [sees, sourced, source, check?, Meaning.cast, hguard]
  | nested child guard => simp [sees, sourced, source, check?, hguard]

/-- What a case keeps depends on the item it sees. -/
theorem Recogniser.keeps_eq (recogniser : Recogniser C P) :
    recogniser.keeps μ answers block terminal
      = (recogniser.sees μ answers terminal).map (recogniser.stored block terminal) := by
  cases recogniser with
  | literal expected => rfl
  | ofType type guard => rfl
  | byCast cast guard => rfl
  | nested child guard =>
      simp only [keeps, sees]
      cases answers child with
      | none => rfl
      | some u =>
          simp only [Option.map_some, Option.filter_some]
          split <;> rfl

/-- The answer of a registry is the union of the first case that recognises the value. -/
theorem Registry.answer_eq (r : Registry C P) :
    r.answer μ answers block terminal
      = (r.firstSeen μ answers terminal).map fun (c, item) =>
          ⟨r.tag, c.recogniser.stored block terminal item⟩ := by
  rw [answer, firstSeen]
  induction r.cases with
  | nil => rfl
  | cons c rest ih =>
      rw [List.findSome?_cons, List.findSome?_cons, Recogniser.keeps_eq]
      cases c.recogniser.sees μ answers terminal with
      | none => exact ih
      | some item => rfl

/-- The first case that sees an item, by the case alone. -/
theorem Registry.map_firstSeen (r : Registry C P) :
    (r.firstSeen μ answers terminal).map Prod.fst
      = r.cases.find? fun c => (c.recogniser.sees μ answers terminal).isSome := by
  rw [firstSeen]
  induction r.cases with
  | nil => rfl
  | cons c rest ih =>
      rw [List.findSome?_cons, List.find?_cons]
      cases c.recogniser.sees μ answers terminal with
      | none => exact ih
      | some item => rfl

/-- The first case that recognises a value is a case of the registry and sees the item. -/
theorem Registry.of_firstSeen_eq_some {r : Registry C P} {c : Case C P} {item : Item}
    (h : r.firstSeen μ answers terminal = some (c, item)) :
    c ∈ r.cases ∧ c.recogniser.sees μ answers terminal = some item := by
  obtain ⟨d, hd, hseen⟩ := List.exists_of_findSome?_eq_some h
  obtain ⟨item', hitem, heq⟩ := Option.map_eq_some_iff.mp hseen
  cases heq
  exact ⟨hd, hitem⟩

theorem Recogniser.sees_congr {recogniser : Recogniser C P}
    (h : ∀ child, recogniser.child? = some child → answers child = answers' child) :
    recogniser.sees μ answers terminal = recogniser.sees μ answers' terminal := by
  cases recogniser with
  | nested child guard => simp [sees, h child rfl]
  | _ => rfl

/-- A registry asks only the registries nested in it. -/
theorem Registry.firstSeen_congr {r : Registry C P}
    (h : ∀ child ∈ r.children, answers child = answers' child) :
    r.firstSeen μ answers terminal = r.firstSeen μ answers' terminal := by
  rw [firstSeen, firstSeen, ← List.head?_filterMap, ← List.head?_filterMap]
  refine congrArg List.head? (List.filterMap_congr fun c hc => ?_)
  rw [Recogniser.sees_congr fun child hchild => h child (mem_children hc hchild)]

end Lemmas

/-! ## The recursion over nesting -/

namespace World

/-- It can be decided whether a registry is nested directly in another one. -/
instance (w : World C P) (child id : RegistryId) : Decidable (w.Nests child id) :=
  inferInstanceAs (Decidable (child ∈ w.children id))

/-- What a registry answers to a terminal value, with each nested registry asked from scratch. -/
def unmemoised (w : World C P) (h : WellFounded w.Nests) (μ : Meaning C P) (block : Nat)
    (terminal : Value) (id : RegistryId) : Option Union :=
  (w.registry id).answer μ
    (fun child => if _ : w.Nests child id then w.unmemoised h μ block terminal child else none)
    block terminal
termination_by h.wrap id

variable {w : World C P} (h : WellFounded w.Nests) (μ : Meaning C P) (block : Nat)
  (terminal : Value)

/-- A registry answers from the answers of the registries nested in it. -/
theorem unmemoised_eq (id : RegistryId) :
    w.unmemoised h μ block terminal id
      = (w.registry id).answer μ (w.unmemoised h μ block terminal) block terminal := by
  rw [unmemoised, Registry.answer_eq, Registry.answer_eq]
  congr 1
  exact Registry.firstSeen_congr fun child hchild => dif_pos hchild

variable {μ} {block} {terminal}

/-- A registry answers if some case of it sees an item. -/
theorem isSome_unmemoised_iff {id : RegistryId} :
    (w.unmemoised h μ block terminal id).isSome = true
      ↔ ∃ c ∈ (w.registry id).cases,
          (c.recogniser.sees μ (w.unmemoised h μ block terminal) terminal).isSome = true := by
  rw [unmemoised_eq, Registry.answer_eq, Option.isSome_map, ← Option.isSome_map (f := Prod.fst),
    Registry.map_firstSeen, List.find?_isSome]

end World

end CaseUnion
