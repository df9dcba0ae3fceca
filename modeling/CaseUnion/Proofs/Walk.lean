import CaseUnion.Proofs.Course
import Mathlib.Data.List.Chain
import Mathlib.Data.List.Perm.Subperm

/-!
# Walks follow courses

A walk *follows* a course if, from any memo that tracks the registries evaluated so far, it has the
host do what the kept steps of the course say, in their order and nothing else, gives the result of
the evaluation without a memo, and leaves a memo that tracks the registries the course has finished.

The memo tracks two lists.  The registries on the stack are pending, and those that were visited
hold the answer they have without a memo.  The stack is a chain of nested registries, so in a world
where no registry contains itself the registry that is asked next is not on it: the slot `pending`
is never read.  For the same reason the stack is never longer than the world, and the bound on the
depth of a walk is never met.
-/

namespace CaseUnion

open Relation (TransGen)
open Course (Step)

variable {C P : Type} {m : Type → Type} [Monad m]

/-! ## A host that notes what it does -/

/-- A world at rest, where casts and predicates are plain functions and whatever the host is asked
to do is noted first. -/
def Host.observed (w : World C P) (μ : Meaning C P) (block : Nat) (note : Effect C P → m Unit) :
    Host C P m where
  world := pure w
  convert cast v := do
    note (.cast cast v)
    return μ.cast cast v
  holds check item := do
    note (.check check item)
    return μ.check check item
  fresh := pure block
  emit event := note (.told event)
  depth := w.size

/-- Where nothing is noted, the host is that of the world at rest. -/
theorem Host.ofWorld_eq_observed (w : World C P) (μ : Meaning C P) (block : Nat) :
    Host.ofWorld w μ block = Host.observed w μ block fun _ => (pure () : Id Unit) := rfl

/-- Notes what the steps of an evaluation have the host do. -/
def replay (note : Effect C P → m Unit) (w : World C P) (terminal : Value)
    (steps : List (Step C P)) : m PUnit :=
  (steps.filterMap (Step.effect? w terminal)).forM note

/-! ## What a memo holds -/

/-- The registries on the stack are pending, those visited hold their answers, and no other registry
was asked. -/
def Memo.Tracks (memo : Memo) (answers : RegistryId → Option Union)
    (stack visited : List RegistryId) : Prop :=
  ∀ id, memo[id]? = if id ∈ stack then some .pending
    else if id ∈ visited then some (.done (answers id)) else none

namespace Memo

variable {memo : Memo} {answers : RegistryId → Option Union} {stack visited : List RegistryId}
  {id : RegistryId}

theorem tracks_empty : Tracks ∅ answers [] [] := by
  intro id
  simp

/-- A registry that is entered becomes pending. -/
theorem Tracks.enter (h : Tracks memo answers stack visited) :
    Tracks (memo.insert id .pending) answers (id :: stack) visited := by
  intro other
  simp only [Std.TreeMap.getElem?_insert, Std.compare_eq_iff_eq]
  by_cases heq : id = other
  · simp [heq]
  · simp [heq, Ne.symm heq, h other]

/-- A registry that is left holds its answer. -/
theorem Tracks.leave (h : Tracks memo answers (id :: stack) visited) (hid : id ∉ stack) :
    Tracks (memo.insert id (.done (answers id))) answers stack (id :: visited) := by
  intro other
  simp only [Std.TreeMap.getElem?_insert, Std.compare_eq_iff_eq]
  by_cases heq : id = other
  · subst heq
    simp [hid]
  · simp [heq, Ne.symm heq, h other]

end Memo

/-! ## Following a course -/

section Follows

variable (w : World C P) (note : Effect C P → m Unit) (terminal : Value)
  (answers : RegistryId → Option Union) (stack : List RegistryId)

/-- A walk does what a course says and gives a result. -/
def Follows {α : Type} (x : Walk m α) (course : Course C P) (result : α) : Prop :=
  ∀ (memo : Memo) (visited : List RegistryId), Memo.Tracks memo answers stack visited →
    ∃ memo', Memo.Tracks memo' answers stack (course.finished visited) ∧
      x.run memo = do
        replay note w terminal (course.kept visited)
        return (result, memo')

variable {w note terminal answers stack} {α β : Type}

theorem replay_cons_silent {step : Step C P} (h : step.effect? w terminal = none)
    (steps : List (Step C P)) :
    replay note w terminal (step :: steps) = replay note w terminal steps := by
  simp [replay, h]

variable [LawfulMonad m]

theorem replay_append (a b : List (Step C P)) :
    replay note w terminal (a ++ b)
      = (replay note w terminal a >>= fun _ => replay note w terminal b) := by
  simp [replay, List.filterMap_append]

theorem follows_pure (result : α) :
    Follows w note terminal answers stack (pure result) .done result :=
  fun memo _ h => ⟨memo, h, by simp [replay, Course.kept]⟩

/-- Walks run one after another follow their courses one after another. -/
theorem Follows.bind {x : Walk m α} {f : α → Walk m β} {a b : Course C P} {r : α} {s : β}
    (hx : Follows w note terminal answers stack x a r)
    (hf : Follows w note terminal answers stack (f r) b s) :
    Follows w note terminal answers stack (x >>= f) (a.append b) s := by
  intro memo visited h
  obtain ⟨memo', htracks, hrun⟩ := hx memo visited h
  obtain ⟨memo'', htracks', hrun'⟩ := hf memo' _ htracks
  refine ⟨memo'', by rwa [Course.finished_append], ?_⟩
  simp [StateT.run_bind, hrun, hrun', replay_append]

/-- A step that has the host do something. -/
theorem follows_noted (step : Step C P) {effect : Effect C P}
    (h : step.effect? w terminal = some effect) (result : α) :
    Follows w note terminal answers stack
      (liftM (do note effect; return result : m α)) (.step step .done) result :=
  fun memo _ htracks => ⟨memo, htracks, by simp [replay, Course.kept, h]⟩

/-- A step that the host knows nothing of. -/
theorem Follows.silent {x : Walk m α} {a : Course C P} {r : α} {step : Step C P}
    (h : step.effect? w terminal = none) (hx : Follows w note terminal answers stack x a r) :
    Follows w note terminal answers stack x (.step step a) r := by
  intro memo visited htracks
  obtain ⟨memo', htracks', hrun⟩ := hx memo visited htracks
  exact ⟨memo', htracks', by simpa [replay, Course.kept, h] using hrun⟩

/-- A walk that begins with an empty memo. -/
theorem Follows.run'_empty {x : Walk m α} {a : Course C P} {r : α}
    (hx : Follows w note terminal answers [] x a r) :
    x.run' ∅ = do
      replay note w terminal (a.kept [])
      return r := by
  obtain ⟨memo, -, hrun⟩ := hx ∅ [] Memo.tracks_empty
  simp [StateT.run'_eq, hrun]

/-! ## One case and one registry -/

variable (μ : Meaning C P) (block : Nat)

/-- A check that the host runs on an item. -/
theorem checked_some (check : Check P) (item : Item) :
    (Host.observed w μ block note).checked (some check) (some item) = do
      note (.check check item)
      return (some item).filter (μ.check check) := by
  simp only [Host.checked, Host.passes, Host.observed, bind_assoc, pure_bind, Option.filter_some]
  cases μ.check check item <;> rfl

/-- The check of a case filters the item of its source. -/
theorem follows_checked (id : RegistryId) (c : Case C P) (item : Option Item) :
    Follows w note terminal answers stack
      (liftM ((Host.observed w μ block note).checked c.recogniser.check? item))
      (Course.ofCheck id c item)
      (item.filter fun item => c.recogniser.check?.all (μ.check · item)) := by
  unfold Course.ofCheck
  cases c.recogniser.check? with
  | none =>
      cases item with
      | none => simpa [Host.checked] using follows_pure none
      | some item =>
          simpa [Host.checked, Host.passes, Option.filter_some] using follows_pure (some item)
  | some check =>
      cases item with
      | none => simpa [Host.checked] using follows_pure none
      | some item =>
          rw [checked_some]
          exact follows_noted _ rfl _

/-- A recogniser sees what it sees without a memo, if its nested registry answers as it does without
one. -/
theorem follows_see {ask : RegistryId → Walk m (Option Union)} {request : RegistryId → Course C P}
    (id : RegistryId) (c : Case C P)
    (hask : ∀ child, c.recogniser.child? = some child →
      Follows w note terminal answers stack (ask child) (request child) (answers child)) :
    Follows w note terminal answers stack
      ((Host.observed w μ block note).see ask terminal c.recogniser)
      (Course.ofCase μ answers terminal request id c) (c.recogniser.sees μ answers terminal) := by
  rw [Recogniser.sees_eq]
  refine .silent rfl ?_
  have hchecked : Follows w note terminal answers stack _ _ _ :=
    follows_checked μ block id c (c.recogniser.sourced μ answers terminal)
  unfold Recogniser.sourced at hchecked ⊢
  cases hsource : c.recogniser.source with
  | cast conversion =>
      simp only [Host.see, Course.ofSource, hsource] at hchecked ⊢
      exact .bind (follows_noted _ rfl _) hchecked
  | registry child =>
      simp only [Host.see, Course.ofSource, hsource, pure_bind] at hchecked ⊢
      exact .bind (hask child (Recogniser.child?_eq_some_iff.mpr hsource)) hchecked

/-- A walk over cases ends at the first that recognises the value. -/
theorem follows_firstMatch {ask : RegistryId → Walk m (Option Union)}
    {request : RegistryId → Course C P} (id : RegistryId) :
    ∀ cs : List (Case C P),
      (∀ c ∈ cs, ∀ child, c.recogniser.child? = some child →
        Follows w note terminal answers stack (ask child) (request child) (answers child)) →
      Follows w note terminal answers stack
        ((Host.observed w μ block note).firstMatch ask terminal cs)
        (Course.ofCases μ answers terminal request id cs)
        (cs.findSome? fun c => (c.recogniser.sees μ answers terminal).map fun item => (c, item))
  | [], _ => follows_pure none
  | c :: rest, hask => by
      have hsee := follows_see μ block id c (hask c (List.mem_cons_self ..))
      have hrest := follows_firstMatch id rest fun d hd => hask d (List.mem_cons_of_mem _ hd)
      rw [Host.firstMatch, Course.ofCases, List.findSome?_cons]
      refine hsee.bind ?_
      cases c.recogniser.sees μ answers terminal with
      | none => exact hrest
      | some item => exact follows_pure (some (c, item))

/-- The host is told of the case that was found when the evaluation of its registry ends. -/
theorem follows_discriminate {ask : RegistryId → Walk m (Option Union)}
    {request : RegistryId → Course C P} (id : RegistryId)
    (hask : ∀ child ∈ w.children id,
      Follows w note terminal answers stack (ask child) (request child) (answers child)) :
    Follows w note terminal answers stack
      ((Host.observed w μ block note).discriminate ask terminal (w.registry id))
      ((Course.ofCases μ answers terminal request id (w.registry id).cases).append
        (.step (.leave id ((w.registry id).firstSeen μ answers terminal)) .done))
      ((w.registry id).firstSeen μ answers terminal) := by
  refine .bind (follows_firstMatch μ block id _ fun c hc child hchild =>
    hask child (Registry.mem_children hc hchild)) ?_
  have hfound : ((w.registry id).cases.findSome? fun c =>
      (c.recogniser.sees μ answers terminal).map fun item => (c, item))
      = (w.registry id).firstSeen μ answers terminal := rfl
  rw [hfound]
  cases (w.registry id).firstSeen μ answers terminal with
  | none => exact .silent rfl (follows_pure none)
  | some found =>
      simpa [Host.observed] using
        follows_noted (m := m) (.leave id (some found)) rfl (some found)

end Follows

/-! ## The stack of a walk -/

namespace World

variable {w : World C P}

/-- A registry and the registries it was asked from, the innermost first: each is nested in the
next, and all exist. -/
structure Path (w : World C P) (path : List RegistryId) : Prop where
  chain : path.IsChain w.Nests
  lt_size : ∀ id ∈ path, id < w.size

theorem path_singleton {id : RegistryId} (hid : id < w.size) : w.Path [id] where
  chain := .singleton id
  lt_size := by simpa using hid

theorem Path.cons (hw : w.Sound) {child id : RegistryId} {stack : List RegistryId}
    (h : w.Path (id :: stack)) (hchild : child ∈ w.children id) :
    w.Path (child :: id :: stack) where
  chain := .cons_cons hchild h.chain
  lt_size := List.forall_mem_cons.mpr ⟨hw.child_lt_size child id hchild, h.lt_size⟩

/-- No registry is on a path twice. -/
theorem Path.nodup (hw : w.Sound) {path : List RegistryId} (h : w.Path path) : path.Nodup := by
  have hpairwise : path.Pairwise (TransGen w.Nests) :=
    (h.chain.imp fun _ _ hnests => TransGen.single hnests).pairwise
  refine hpairwise.imp fun {a b} hab heq => ?_
  subst heq
  exact Nesting.not_cycle hw.wellFounded a hab

/-- A path is no longer than the world. -/
theorem Path.length_le (hw : w.Sound) {path : List RegistryId} (h : w.Path path) :
    path.length ≤ w.size := by
  have hsub : path ⊆ List.range w.size := fun id hid => List.mem_range.mpr (h.lt_size id hid)
  simpa using (List.subperm_of_subset (h.nodup hw) hsub).length_le

end World

/-! ## The walk -/

section Answer

variable {w : World C P} (hw : w.Sound) (μ : Meaning C P) (block : Nat) (terminal : Value)
  (note : Effect C P → m Unit) [LawfulMonad m]

/-- A walk that asks a registry follows the registry's course without a memo and gives the same
answer.  The depth is never used up, since no path is longer than the world.  The course enters the
registry before it does anything, a step that the host knows nothing of. -/
theorem follows_answer : ∀ (depth : Nat) (id : RegistryId) (stack : List RegistryId),
    w.Path (id :: stack) → w.size ≤ depth + stack.length →
    Follows w note terminal (w.unmemoised hw.wellFounded μ block terminal) stack
      ((Host.observed w μ block note).answer block terminal depth id)
      (w.request hw.wellFounded μ block terminal id)
      (w.unmemoised hw.wellFounded μ block terminal id)
  | 0, id, stack, hpath, hdepth => by
      have hlength := hpath.length_le hw
      rw [List.length_cons] at hlength
      omega
  | depth + 1, id, stack, hpath, hdepth => by
      intro memo visited h
      have hid : id ∉ stack := (List.nodup_cons.mp (hpath.nodup hw)).1
      have hslot := h id
      rw [if_neg hid] at hslot
      by_cases hvisited : id ∈ visited
      · rw [if_pos hvisited] at hslot
        refine ⟨memo, by simpa [World.request, Course.finished, hvisited] using h, ?_⟩
        simp [Host.answer, Host.registry, Host.observed, hslot, World.request, Course.kept,
          hvisited, replay, Step.effect?]
      · rw [if_neg hvisited] at hslot
        have hbelow := follows_discriminate μ block id
          fun child hchild => follows_answer depth child (id :: stack) (hpath.cons hw hchild)
            (by rw [List.length_cons]; omega)
        rw [← World.course_eq] at hbelow
        obtain ⟨memo', htracks, hrun⟩ := hbelow _ visited h.enter
        refine ⟨memo'.insert id (.done (w.unmemoised hw.wellFounded μ block terminal id)), ?_, ?_⟩
        · simp only [Course.finished_append, Course.finished] at htracks
          simpa [World.request, Course.finished, hvisited] using htracks.leave hid
        · have hanswer := World.unmemoised_eq hw.wellFounded μ block terminal id
          rw [Registry.answer_eq] at hanswer
          have hworld : (Host.observed w μ block note).world = pure w := rfl
          rw [World.kept_request _ _ hvisited, replay_cons_silent rfl]
          simp [Host.answer, Host.registry, hworld, hslot, hrun, hanswer]

/-- The body of a walk is run with an empty memo and the whole depth. -/
theorem observed_walk {α : Type} (v : Value)
    (body : (RegistryId → Walk m (Option Union)) → Walk m α) :
    (Host.observed w μ block note).walk v body
      = (body ((Host.observed w μ block note).answer block v.terminal w.size)).run' ∅ := by
  simp [Host.walk, Host.observed]

variable (id : RegistryId)

/-- Wrapping a value follows the course of the registry. -/
theorem observed_wrapValue (hid : id < w.size) (v : Value) :
    (Host.observed w μ block note).wrapValue id v = do
      replay note w v.terminal ((w.request hw.wellFounded μ block v.terminal id).kept [])
      return w.unmemoised hw.wellFounded μ block v.terminal id := by
  rw [Host.wrapValue, observed_walk]
  exact (follows_answer hw μ block v.terminal note w.size id [] (World.path_singleton hid)
    (Nat.le_refl _)).run'_empty

/-- A registry nested in one that exists can be asked first. -/
theorem follows_child {child : RegistryId} (hchild : child ∈ w.children id) :
    Follows w note terminal (w.unmemoised hw.wellFounded μ block terminal) []
      ((Host.observed w μ block note).answer block terminal w.size child)
      (w.request hw.wellFounded μ block terminal child)
      (w.unmemoised hw.wellFounded μ block terminal child) :=
  follows_answer hw μ block terminal note w.size child []
    (World.path_singleton (hw.child_lt_size child id hchild)) (Nat.le_refl _)

/-- Asking for the case of a union follows the course of the registry, too. -/
theorem observed_which (u : Union) :
    (Host.observed w μ block note).which id u = do
      replay note w u.terminal ((w.request hw.wellFounded μ block u.terminal id).kept [])
      return ((w.registry id).firstSeen μ (w.unmemoised hw.wellFounded μ block u.terminal)
        u.terminal).map fun (c, _) => c.info := by
  have hfollows := follows_discriminate μ block id
    fun child hchild => follows_child hw μ block u.terminal note id hchild
  rw [← World.course_eq] at hfollows
  have hworld : (Host.observed w μ block note).world = pure w := rfl
  rw [World.kept_request _ _ List.not_mem_nil, replay_cons_silent rfl]
  simp only [Host.which, Host.registry, hworld, pure_bind, observed_walk]
  have hrun := hfollows.run'_empty
  unfold Union.terminal at hrun ⊢
  rw [hrun]
  simp

/-- The cast of a case follows the course of the case alone. -/
theorem observed_cast {c : Case C P} (hc : c ∈ (w.registry id).cases) (v : Value) :
    c.cast (Host.observed w μ block note) v = do
      replay note w v.terminal ((Course.ofCase μ (w.unmemoised hw.wellFounded μ block v.terminal)
        v.terminal (w.request hw.wellFounded μ block v.terminal) id c).kept [])
      return c.recogniser.sees μ (w.unmemoised hw.wellFounded μ block v.terminal) v.terminal := by
  rw [Case.cast, observed_walk]
  exact (follows_see μ block id c fun child hchild => follows_child hw μ block v.terminal note id
    (Registry.mem_children hc hchild)).run'_empty

end Answer

end CaseUnion
