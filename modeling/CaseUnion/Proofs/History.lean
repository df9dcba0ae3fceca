import CaseUnion.Proofs.Nesting
import CaseUnion.Registration
import Std.Data.TreeMap.Lemmas

/-!
# Reachable worlds

A world is *reachable* if a sequence of operations makes it from the empty world.  An operation
makes a registry, seals one, or registers a case, and it may fail.  The only thing asked of an
operation is that the registry a case nests exists and is a match registry.

Every reachable world is *sound* (`Reachable.sound`).  In each registry the places of the cases
agree with their ordinals and their names, every nested registry exists, and nesting is
well-founded.  The last is kept because an accepted registration adds one edge, and the search has
shown that the edge closes no cycle.
-/

namespace CaseUnion

open Relation (ReflTransGen TransGen)
open Nesting (WithEdge)

variable {C P : Type}

/-! ## Operations -/

/-- Something done to a world. -/
inductive Operation (C P : Type) where
  | create (label : String) (flavor : Flavor) (tag : Tag)
  | sealRegistry (id : RegistryId)
  | register (id : RegistryId) (name : String) (recogniser : Recogniser C P)

namespace Operation

/-- The world after an operation.  A refused registration leaves it as it is. -/
def apply (w : World C P) : Operation C P → World C P
  | create label flavor tag => w.create label flavor tag
  | sealRegistry id => w.sealRegistry id
  | register id name recogniser =>
      match w.register id name recogniser with
      | .ok (w', _) => w'
      | .error _ => w

/-- Whether the registry that an operation nests is a match registry of the world. -/
def Possible (w : World C P) : Operation C P → Prop
  | register _ _ recogniser =>
      ∀ child, recogniser.child? = some child →
        child < w.size ∧ (w.registry child).flavor = .matching
  | create .. | sealRegistry _ => True

end Operation

namespace World

/-- The worlds that operations make from the empty one. -/
inductive Reachable : World C P → Prop
  | start : Reachable {}
  | step {w : World C P} (hw : Reachable w) (operation : Operation C P)
      (h : operation.Possible w) : Reachable (operation.apply w)

/-- A registry is nested directly in another one. -/
def Nests (w : World C P) : RegistryId → RegistryId → Prop := Nesting.Nests w.children

end World

/-! ## What a registration does -/

/-- An accepted registration finds the registry open, the name free and the nested registry
elsewhere. -/
theorem World.of_fault?_eq_none {w : World C P} {id : RegistryId} {name : String}
    {recogniser : Recogniser C P} (h : w.fault? id name recogniser = none) :
    (w.registry id).isSealed = false ∧ name ∉ (w.registry id).places ∧
      ∀ child, recogniser.child? = some child → w.reaches child id = false := by
  simp only [World.fault?] at h
  split at h
  · cases h
  · split at h
    · cases h
    · rename_i hsealed
      split at h
      · cases h
      · rename_i hname
        refine ⟨by simpa using hsealed, by simpa using hname, fun child hchild => ?_⟩
        rw [hchild] at h
        by_contra hreaches
        simp [Bool.not_eq_false _ ▸ hreaches] at h

/-- A registration leaves the world as it is, or it has no fault and adds the next case. -/
theorem Operation.apply_register (w : World C P) (id : RegistryId) (name : String)
    (recogniser : Recogniser C P) :
    (Operation.register id name recogniser).apply w = w ∨
      (w.fault? id name recogniser = none ∧ (Operation.register id name recogniser).apply w
        = w.update id fun r => r.push ((w.registry id).nextCase name recogniser)) := by
  cases h : w.fault? id name recogniser with
  | none => exact .inr ⟨rfl, by simp [Operation.apply, World.register, h]⟩
  | some error => exact .inl (by simp [Operation.apply, World.register, h])

/-- A registry that is not sealed exists. -/
theorem World.lt_size_of_isSealed_eq_false {w : World C P} {id : RegistryId}
    (h : (w.registry id).isSealed = false) : id < w.size := by
  by_contra hge
  rw [World.registry_eq_vacant (Nat.le_of_not_lt hge)] at h
  cases h

/-- A registry that has a case exists. -/
theorem World.lt_size_of_mem_cases {w : World C P} {id : RegistryId} {c : Case C P}
    (hc : c ∈ (w.registry id).cases) : id < w.size := by
  by_contra hge
  rw [World.registry_eq_vacant (Nat.le_of_not_lt hge)] at hc
  cases hc

/-! ## Nesting after an operation -/

namespace World

variable (w : World C P)

theorem children_eq_nil {id : RegistryId} (h : w.size ≤ id) : w.children id = [] := by
  rw [children, registry_eq_vacant h]
  rfl

@[simp] theorem nests_create (label : String) (flavor : Flavor) (tag : Tag) :
    (w.create label flavor tag).Nests = w.Nests := by
  have hchildren : (w.create label flavor tag).children = w.children := by
    funext id
    rw [children, registry_create]
    split
    next heq => rw [heq, children_eq_nil w (Nat.le_refl _)]; rfl
    next => rfl
  simp [Nests, hchildren]

@[simp] theorem nests_sealRegistry (id : RegistryId) : (w.sealRegistry id).Nests = w.Nests := by
  have hchildren : (w.sealRegistry id).children = w.children := by
    funext other
    rw [children, sealRegistry, registry_update]
    split
    next heq => rw [heq.1]; rfl
    next => rfl
  simp [Nests, hchildren]

/-- One more case in a registry adds at most the edge from its nested registry. -/
theorem nests_push {id : RegistryId} (hid : id < w.size) (c : Case C P) (a b : RegistryId) :
    (w.update id fun r => r.push c).Nests a b
      ↔ w.Nests a b ∨ (c.recogniser.child? = some a ∧ b = id) := by
  simp only [Nests, Nesting.Nests, children, registry_update]
  by_cases heq : b = id
  · subst heq
    simp [hid]
  · simp [heq]

/-- Only registries that exist nest others. -/
theorem parent_lt_size {child id : RegistryId} (h : w.Nests child id) : id < w.size := by
  by_contra hge
  have hmem : child ∈ w.children id := h
  rw [children_eq_nil w (Nat.le_of_not_lt hge)] at hmem
  cases hmem

/-- The search through nested registries is exact. -/
theorem reaches_iff (id target : RegistryId) :
    w.reaches id target = true ↔ ReflTransGen w.Nests target id :=
  Nesting.reaches_iff (fun _ hle => children_eq_nil w hle) id target

/-- A registration has no fault if it names no refused type, finds the registry open and the name
free, and nests a registry that does not contain the one it is added to. -/
theorem fault?_eq_none_iff {id : RegistryId} {name : String} {recogniser : Recogniser C P} :
    w.fault? id name recogniser = none ↔
      (recogniser.refusedType? w.wrappers = none ∧ (w.registry id).isSealed = false ∧
        name ∉ (w.registry id).places) ∧
      ∀ child, recogniser.child? = some child → ¬ ReflTransGen w.Nests id child := by
  constructor
  · intro h
    obtain ⟨hopen, hname, hreaches⟩ := of_fault?_eq_none h
    refine ⟨⟨?_, hopen, hname⟩, fun child hchild => ?_⟩
    · cases htype : recogniser.refusedType? w.wrappers with
      | none => rfl
      | some type => simp [fault?, htype] at h
    · rw [← reaches_iff, hreaches child hchild]
      exact Bool.false_ne_true
  · rintro ⟨⟨htype, hopen, hname⟩, hedge⟩
    cases hchild : recogniser.child? with
    | none => simp [fault?, htype, hopen, hname, hchild]
    | some child =>
        have hreaches := (w.reaches_iff child id).not.mpr (hedge child hchild)
        simp [fault?, htype, hopen, hname, hchild, hreaches]

end World

/-! ## The order of the cases of a registry -/

/-- The case at a place has that place as its ordinal, and the places by name are those of the cases
with the name. -/
structure Registry.Ordered (r : Registry C P) : Prop where
  ordinal : ∀ (i : Nat) (c : Case C P), r.cases[i]? = some c → c.ordinal = i
  places : ∀ (name : String) (i : Nat),
    r.places[name]? = some i ↔ ∃ c, r.cases[i]? = some c ∧ c.name = name

/-- A list with one more element at the end. -/
theorem getElem?_snoc_eq_some_iff {α : Type} {cs : List α} {c d : α} {i : Nat} :
    (cs ++ [d])[i]? = some c ↔ cs[i]? = some c ∨ (i = cs.length ∧ c = d) := by
  rcases Nat.lt_trichotomy i cs.length with hlt | heq | hgt
  · rw [List.getElem?_append_left hlt]
    simp [Nat.ne_of_lt hlt]
  · subst heq
    simp [eq_comm]
  · have hpos : i - cs.length ≠ 0 := Nat.sub_ne_zero_of_lt hgt
    rw [List.getElem?_append_right (Nat.le_of_lt hgt)]
    simp [hpos, Nat.ne_of_gt hgt, Nat.le_of_lt hgt]

namespace Registry.Ordered

variable {r : Registry C P}

theorem of_empty (hcases : r.cases = []) (hplaces : r.places = ∅) : r.Ordered where
  ordinal := by simp [hcases]
  places := by simp [hcases, hplaces]

/-- A name is taken if and only if some case has it. -/
theorem mem_places_iff (hr : r.Ordered) (name : String) :
    name ∈ r.places ↔ ∃ c ∈ r.cases, c.name = name := by
  rw [Std.TreeMap.mem_iff_isSome_getElem?, Option.isSome_iff_exists]
  constructor
  · rintro ⟨i, hi⟩
    obtain ⟨c, hc, hname⟩ := (hr.places name i).mp hi
    exact ⟨c, List.mem_of_getElem? hc, hname⟩
  · rintro ⟨c, hc, hname⟩
    obtain ⟨i, hi⟩ := List.mem_iff_getElem?.mp hc
    exact ⟨i, (hr.places name i).mpr ⟨c, hi, hname⟩⟩

/-- The next case under a free name keeps the order. -/
theorem push_nextCase (hr : r.Ordered) {name : String} (hname : name ∉ r.places)
    (recogniser : Recogniser C P) : (r.push (r.nextCase name recogniser)).Ordered where
  ordinal := by
    intro i c hc
    rcases getElem?_snoc_eq_some_iff.mp hc with hold | ⟨rfl, rfl⟩
    · exact hr.ordinal i c hold
    · rfl
  places := by
    intro other i
    have hnew : ∀ c ∈ r.cases, c.name ≠ name := fun c hc heq =>
      hname ((hr.mem_places_iff name).mpr ⟨c, hc, heq⟩)
    simp only [places_push, cases_push, Std.TreeMap.getElem?_insert, getElem?_snoc_eq_some_iff,
      Std.compare_eq_iff_eq]
    split
    next heq =>
      constructor
      · intro hi
        exact ⟨_, .inr ⟨(Option.some.inj hi).symm, rfl⟩, heq⟩
      · rintro ⟨c, hold | ⟨rfl, rfl⟩, hother⟩
        · exact absurd (hother.trans heq.symm) (hnew c (List.mem_of_getElem? hold))
        · rfl
    next hne =>
      rw [hr.places other i]
      constructor
      · rintro ⟨c, hold, hother⟩
        exact ⟨c, .inl hold, hother⟩
      · rintro ⟨c, hold | ⟨rfl, rfl⟩, hother⟩
        · exact ⟨c, hold, hother⟩
        · exact absurd hother hne

/-- The ordinals grow in the order of declaration. -/
theorem pairwise_ordinal (hr : r.Ordered) : r.cases.Pairwise (·.ordinal < ·.ordinal) := by
  refine List.pairwise_iff_getElem.mpr fun i j hi hj hlt => ?_
  rw [hr.ordinal i _ (List.getElem?_eq_getElem hi), hr.ordinal j _ (List.getElem?_eq_getElem hj)]
  exact hlt

/-- A case stands among those before another one, or its ordinal is no less. -/
theorem mem_earlier_or_le (hr : r.Ordered) {earlier later : List (Case C P)} {c d : Case C P}
    (hcases : r.cases = earlier ++ d :: later) (hc : c ∈ r.cases) :
    c ∈ earlier ∨ d.ordinal ≤ c.ordinal := by
  have hordinals := hr.pairwise_ordinal
  rw [hcases] at hc hordinals
  obtain ⟨-, hlater, -⟩ := List.pairwise_append.mp hordinals
  rcases List.mem_append.mp hc with hold | hnew
  · exact .inl hold
  · rcases List.mem_cons.mp hnew with rfl | hnext
    · exact .inr (Nat.le_refl _)
    · exact .inr (Nat.le_of_lt (List.rel_of_pairwise_cons hlater hnext))

/-- The ordinals differ. -/
theorem nodup_ordinals (hr : r.Ordered) : (r.cases.map Case.ordinal).Nodup :=
  List.pairwise_map.mpr (hr.pairwise_ordinal.imp Nat.ne_of_lt)

end Registry.Ordered

/-! ## Sound worlds -/

namespace World

/-- What every reachable world keeps. -/
structure Sound (w : World C P) : Prop where
  ordered : ∀ id, (w.registry id).Ordered
  child_lt_size : ∀ child id, w.Nests child id → child < w.size
  wellFounded : WellFounded w.Nests

theorem sound_empty : ({} : World C P).Sound where
  ordered _ := .of_empty rfl rfl
  child_lt_size _ id h := absurd (parent_lt_size _ h) (Nat.not_lt_zero id)
  wellFounded := ⟨fun id => ⟨id, fun _ h => absurd (parent_lt_size _ h) (Nat.not_lt_zero id)⟩⟩

variable {w : World C P}

theorem Sound.create (hw : w.Sound) (label : String) (flavor : Flavor) (tag : Tag) :
    (w.create label flavor tag).Sound where
  ordered id := by
    rw [registry_create]
    split
    · exact .of_empty rfl rfl
    · exact hw.ordered id
  child_lt_size child id h := by
    rw [nests_create] at h
    rw [size_create]
    exact Nat.lt_succ_of_lt (hw.child_lt_size child id h)
  wellFounded := by
    rw [nests_create]
    exact hw.wellFounded

theorem Sound.sealRegistry (hw : w.Sound) (id : RegistryId) : (w.sealRegistry id).Sound where
  ordered other := by
    rw [World.sealRegistry, registry_update]
    split
    · exact ⟨(hw.ordered id).ordinal, (hw.ordered id).places⟩
    · exact hw.ordered other
  child_lt_size child other h := by
    rw [nests_sealRegistry] at h
    exact Nat.lt_of_lt_of_eq (hw.child_lt_size child other h) (size_update ..).symm
  wellFounded := by
    rw [nests_sealRegistry]
    exact hw.wellFounded

/-- An accepted registration keeps a world sound.  The edge it adds, if any, has its parent not
below its child, since the search did not find it there. -/
theorem Sound.push (hw : w.Sound) {id : RegistryId} {name : String}
    {recogniser : Recogniser C P} (hfault : w.fault? id name recogniser = none)
    (hpossible : (Operation.register id name recogniser).Possible w) :
    (w.update id fun r => r.push ((w.registry id).nextCase name recogniser)).Sound := by
  obtain ⟨hsealed, hname, hreaches⟩ := of_fault?_eq_none hfault
  have hid : id < w.size := lt_size_of_isSealed_eq_false hsealed
  refine ⟨fun other => ?_, fun child parent h => ?_, ?_⟩
  · rw [registry_update]
    split
    · exact (hw.ordered id).push_nextCase hname recogniser
    · exact hw.ordered other
  · rw [size_update]
    rcases (nests_push w hid _ child parent).mp h with hold | ⟨hchild, -⟩
    · exact hw.child_lt_size child parent hold
    · exact (hpossible child hchild).1
  · cases hchild : recogniser.child? with
    | none =>
        refine Subrelation.wf (fun {a b} h => ?_) hw.wellFounded
        rcases (nests_push w hid _ a b).mp h with hold | ⟨hnew, -⟩
        · exact hold
        · exact absurd (hchild.symm.trans hnew) (by simp)
    | some child =>
        have hedge : ¬ ReflTransGen w.Nests id child := by
          rw [← reaches_iff, hreaches child hchild]
          simp
        have hwithEdge := Nesting.wellFounded_withEdge hw.wellFounded hedge
        refine Subrelation.wf (fun {a b} h => ?_) hwithEdge
        rcases (nests_push w hid _ a b).mp h with hold | ⟨hnew, heq⟩
        · exact .inl hold
        · exact .inr ⟨Option.some.inj (hnew.symm.trans hchild), heq⟩

/-- Every operation keeps a world sound. -/
theorem Sound.apply (hw : w.Sound) (operation : Operation C P) (h : operation.Possible w) :
    (operation.apply w).Sound := by
  cases operation with
  | create label flavor tag => exact hw.create label flavor tag
  | sealRegistry id => exact hw.sealRegistry id
  | register id name recogniser =>
      rcases Operation.apply_register w id name recogniser with hsame | ⟨hfault, hnew⟩
      · rw [hsame]
        exact hw
      · rw [hnew]
        exact hw.push hfault h

theorem Reachable.sound (hw : w.Reachable) : w.Sound := by
  induction hw with
  | start => exact sound_empty
  | step _ operation h ih => exact ih.apply operation h

/-! ## No registry contains itself -/

/-- On an open registry and under a free name, a nested case has the fault of recursion if its
registry reaches the one it is added to, and none otherwise. -/
theorem Sound.fault?_nested (hw : w.Sound) {id : RegistryId} {name : String}
    (hsealed : (w.registry id).isSealed = false)
    (hname : ∀ c ∈ (w.registry id).cases, c.name ≠ name) (child : RegistryId) (guard : Option P) :
    w.fault? id name (.nested child guard)
      = if w.reaches child id then
          some (.recursiveNesting (w.registry id).label name (w.registry child).label)
        else none := by
  have hfree : name ∉ (w.registry id).places := fun h => by
    obtain ⟨c, hc, heq⟩ := ((hw.ordered id).mem_places_iff name).mp h
    exact hname c hc heq
  simp [fault?, Recogniser.refusedType?, Recogniser.declaredType?, Recogniser.child?, hsealed,
    hfree]

/-- No registry of a reachable world contains itself, and nothing else is refused as recursive.  On
an open registry and under a free name, a nested case is refused as recursive if and only if the
edge to its registry would close a cycle, and otherwise the edge is added. -/
theorem Reachable.nesting_acyclic (hw : w.Reachable) :
    (∀ id, ¬ TransGen w.Nests id id) ∧ WellFounded w.Nests ∧
      ∀ (id : RegistryId) (name : String) (child : RegistryId) (guard : Option P),
        (w.registry id).isSealed = false → (∀ c ∈ (w.registry id).cases, c.name ≠ name) →
        (w.register id name (.nested child guard)
            = .error (.recursiveNesting (w.registry id).label name (w.registry child).label)
          ↔ ∃ a, TransGen (WithEdge w.Nests child id) a a) ∧
        ((¬ ∃ a, TransGen (WithEdge w.Nests child id) a a) →
          ∃ w' c, w.register id name (.nested child guard) = .ok (w', c) ∧
            ∀ a b, w'.Nests a b ↔ WithEdge w.Nests child id a b) := by
  have hsound := hw.sound
  refine ⟨Nesting.not_cycle hsound.wellFounded, hsound.wellFounded, ?_⟩
  intro id name child guard hsealed hname
  have hfault := hsound.fault?_nested hsealed hname child guard
  rw [Nesting.exists_cycle_withEdge_iff hsound.wellFounded, ← reaches_iff]
  by_cases hreaches : w.reaches child id = true
  · simp [register, hfault, hreaches]
  · have hid : id < w.size := lt_size_of_isSealed_eq_false hsealed
    refine ⟨by simp [register, hfault, hreaches], fun _ => ?_⟩
    refine ⟨w.update id fun r => r.push ((w.registry id).nextCase name (.nested child guard)), _,
      by simp [register, hfault, hreaches]; rfl, fun a b => ?_⟩
    rw [nests_push w hid]
    simp [Registry.nextCase, Recogniser.child?, WithEdge, eq_comm]

/-! ## The diamond -/

/-- A registry nested twice, once under a guard and once without. -/
def diamond : World Empty Bool :=
  ([.create "Leaf" .matching ⟨"leaf"⟩, .create "Left" .matching ⟨"left"⟩,
    .create "Right" .matching ⟨"right"⟩, .create "Top" .matching ⟨"top"⟩,
    .register 0 "int" (.ofType (.datum .int32) none),
    .register 1 "guarded" (.nested 0 (some false)), .register 2 "plain" (.nested 0 none),
    .register 3 "left" (.nested 1 none), .register 3 "right" (.nested 2 none)] :
      List (Operation Empty Bool)).foldl Operation.apply {}

/-- The diamond, written out. -/
theorem diamond_eq :
    diamond = {
      registries := [
        { label := "Leaf", flavor := .matching, tag := ⟨"leaf"⟩,
          cases := [⟨"Leaf", "int", 0, ⟨"leaf"⟩, .ofType (.datum .int32) none⟩],
          places := (∅ : Std.TreeMap String Nat).insert "int" 0 },
        { label := "Left", flavor := .matching, tag := ⟨"left"⟩,
          cases := [⟨"Left", "guarded", 0, ⟨"left"⟩, .nested 0 (some false)⟩],
          places := (∅ : Std.TreeMap String Nat).insert "guarded" 0 },
        { label := "Right", flavor := .matching, tag := ⟨"right"⟩,
          cases := [⟨"Right", "plain", 0, ⟨"right"⟩, .nested 0 none⟩],
          places := (∅ : Std.TreeMap String Nat).insert "plain" 0 },
        { label := "Top", flavor := .matching, tag := ⟨"top"⟩,
          cases := [⟨"Top", "left", 0, ⟨"top"⟩, .nested 1 none⟩,
            ⟨"Top", "right", 1, ⟨"top"⟩, .nested 2 none⟩],
          places := ((∅ : Std.TreeMap String Nat).insert "left" 0).insert "right" 1 }]
      wrappers := [⟨"top"⟩, ⟨"right"⟩, ⟨"left"⟩, ⟨"leaf"⟩] } := by
  cbv

theorem diamond_reachable : diamond.Reachable := by
  refine .step (.step (.step (.step (.step (.step (.step (.step (.step .start
    (.create ..) trivial) (.create ..) trivial) (.create ..) trivial) (.create ..) trivial)
    (.register ..) ?_) (.register ..) ?_) (.register ..) ?_) (.register ..) ?_) (.register ..) ?_
  all_goals
    intro child h
    cases h
  all_goals exact ⟨by cbv, by cbv⟩

theorem diamond_size : diamond.size = 4 := by
  rw [diamond_eq]
  rfl

/-- The registry at the top of the diamond exists. -/
theorem top_lt_size_diamond : 3 < diamond.size :=
  Nat.lt_of_lt_of_eq (Nat.lt_add_one 3) diamond_size.symm

/-- The registry at the bottom, which the branches nest. -/
theorem diamond_leaf :
    diamond.registry 0 = {
      label := "Leaf", flavor := .matching, tag := ⟨"leaf"⟩,
      cases := [⟨"Leaf", "int", 0, ⟨"leaf"⟩, .ofType (.datum .int32) none⟩],
      places := (∅ : Std.TreeMap String Nat).insert "int" 0 } := by
  rw [diamond_eq]
  rfl

/-- The branch that nests the bottom without a guard. -/
theorem diamond_right :
    diamond.registry 2 = {
      label := "Right", flavor := .matching, tag := ⟨"right"⟩,
      cases := [⟨"Right", "plain", 0, ⟨"right"⟩, .nested 0 none⟩],
      places := (∅ : Std.TreeMap String Nat).insert "plain" 0 } := by
  rw [diamond_eq]
  rfl

/-- The registry at the top, which nests the branches. -/
theorem diamond_top :
    diamond.registry 3 = {
      label := "Top", flavor := .matching, tag := ⟨"top"⟩,
      cases := [⟨"Top", "left", 0, ⟨"top"⟩, .nested 1 none⟩,
        ⟨"Top", "right", 1, ⟨"top"⟩, .nested 2 none⟩],
      places := ((∅ : Std.TreeMap String Nat).insert "left" 0).insert "right" 1 } := by
  rw [diamond_eq]
  rfl

/-- The one case at the bottom. -/
theorem int_mem_diamond_leaf :
    ⟨"Leaf", "int", 0, ⟨"leaf"⟩, .ofType (.datum .int32) none⟩ ∈ (diamond.registry 0).cases := by
  rw [diamond_leaf]
  exact .head _

/-- The case of the right branch for the bottom. -/
theorem plain_mem_diamond_right :
    ⟨"Right", "plain", 0, ⟨"right"⟩, .nested 0 none⟩ ∈ (diamond.registry 2).cases := by
  rw [diamond_right]
  exact .head _

/-- The case at the top for the right branch. -/
theorem right_mem_diamond_top :
    ⟨"Top", "right", 1, ⟨"top"⟩, .nested 2 none⟩ ∈ (diamond.registry 3).cases := by
  rw [diamond_top]
  exact .tail _ (.head _)

theorem leaf_nests_right : diamond.Nests 0 2 := Registry.mem_children plain_mem_diamond_right rfl

theorem right_nests_top : diamond.Nests 2 3 := Registry.mem_children right_mem_diamond_top rfl

/-- The bottom lies below the top. -/
theorem leaf_path_top : ReflTransGen diamond.Nests 0 3 :=
  .tail (.single leaf_nests_right) right_nests_top

/-- Nothing but the bottom lies below the right branch. -/
theorem eq_of_path_right {below : RegistryId} (hpath : ReflTransGen diamond.Nests below 2) :
    below = 2 ∨ below = 0 := by
  induction hpath using ReflTransGen.head_induction_on with
  | refl => exact .inl rfl
  | @head child parent hnests _ ih =>
      have hchild : child ∈ diamond.children parent := hnests
      rcases ih with rfl | rfl
      · rw [children, diamond_right] at hchild
        exact .inr (List.mem_singleton.mp hchild)
      · rw [children, diamond_leaf] at hchild
        cases hchild

/-- The registry at the bottom of the diamond cannot nest the one at its top. -/
theorem diamond_nesting_acyclic :
    (diamond.registry 0).isSealed = false ∧
      (∀ c ∈ (diamond.registry 0).cases, c.name ≠ "top") ∧
      (∀ id, ¬ TransGen diamond.Nests id id) ∧
      diamond.register 0 "top" (.nested 3 none)
        = .error (.recursiveNesting "Leaf" "top" "Top") := by
  have hsealed : (diamond.registry 0).isSealed = false := by rw [diamond_leaf]
  have hname : ∀ c ∈ (diamond.registry 0).cases, c.name ≠ "top" := by simp [diamond_leaf]
  have hcycle : TransGen (WithEdge diamond.Nests 3 0) 0 0 := by
    exact .tail (.tail (.single (.inl leaf_nests_right)) (.inl right_nests_top)) (.inr ⟨rfl, rfl⟩)
  obtain ⟨hacyclic, -, hexact⟩ := diamond_reachable.nesting_acyclic
  have hrefused := (hexact 0 "top" 3 none hsealed hname).1.mpr ⟨0, hcycle⟩
  rw [diamond_leaf, diamond_top] at hrefused
  exact ⟨hsealed, hname, hacyclic, hrefused⟩

end World

end CaseUnion
