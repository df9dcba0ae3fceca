import CaseUnion.Proofs.History

/-!
# The outcome of a registration

A registration ends in one of five ways, and what decides is the world alone
(`Reachable.registration_decided`).  It is refused, for the first of the four faults that it has, or
it is accepted.  `Refuses` says when each fault is the first, in terms of the cases of the registry
and the paths of the nesting graph.  So the proof has to show that three shortcuts are right: the
tags of the wrapper types are those of the registries made so far, the map of places knows all
names, and the search through nested registries is exact.

A refusal leaves the world as it is, and with it whatever any registry or handle answers.  An
acceptance puts one case at the end of one registry and changes nothing else.
-/

namespace CaseUnion.World

open Relation (ReflTransGen)

variable {C P : Type}

/-! ## Wrapper types -/

section Wrappers

variable (w : World C P)

/-- Some registry of the world has a tag. -/
def HasTag (tag : Tag) : Prop := ∃ id < w.size, (w.registry id).tag = tag

/-- The items of a type are values, layers, or unions of a registry of the world. -/
def Wraps : ItemType → Prop
  | .value | .layer => True
  | .union tag => w.HasTag tag
  | .datum _ => False

/-- A change that keeps the tag of a registry keeps the tags of the world. -/
theorem hasTag_update (id : RegistryId) {change : Registry C P → Registry C P}
    (h : (change (w.registry id)).tag = (w.registry id).tag) (tag : Tag) :
    (w.update id change).HasTag tag ↔ w.HasTag tag := by
  have htag : ∀ other, ((w.update id change).registry other).tag = (w.registry other).tag := by
    intro other
    rw [registry_update]
    split
    next heq => rw [h, heq.1]
    next => rfl
  simp only [HasTag, size_update, htag]

theorem hasTag_create (label : String) (flavor : Flavor) (new tag : Tag) :
    (w.create label flavor new).HasTag tag ↔ tag = new ∨ w.HasTag tag := by
  simp only [HasTag, size_create, registry_create]
  constructor
  · rintro ⟨id, hid, htag⟩
    split at htag
    next => exact .inl htag.symm
    next hne => exact .inr ⟨id, Nat.lt_of_le_of_ne (Nat.le_of_lt_succ hid) hne, htag⟩
  · rintro (rfl | ⟨id, hid, htag⟩)
    · exact ⟨w.size, Nat.lt_succ_self _, by simp⟩
    · exact ⟨id, Nat.lt_succ_of_lt hid, by simpa [Nat.ne_of_lt hid] using htag⟩

theorem mem_wrappers_create (label : String) (flavor : Flavor) (new tag : Tag) :
    tag ∈ (w.create label flavor new).wrappers ↔ tag = new ∨ tag ∈ w.wrappers := by
  by_cases hnew : new ∈ w.wrappers
  · simp only [create, declareWrapper, if_pos hnew]
    constructor
    · exact .inr
    · rintro (rfl | hold)
      · exact hnew
      · exact hold
  · simp [create, declareWrapper, if_neg hnew]

variable {w}

/-- The tags of the wrapper types are those of the registries made so far. -/
theorem Reachable.mem_wrappers_iff (hw : w.Reachable) (tag : Tag) :
    tag ∈ w.wrappers ↔ w.HasTag tag := by
  induction hw with
  | start => simp [HasTag, size]
  | @step w _ operation _ ih =>
      cases operation with
      | create label flavor new =>
          rw [Operation.apply, mem_wrappers_create, hasTag_create, ih]
      | sealRegistry id =>
          rw [Operation.apply, sealRegistry, hasTag_update]
          · exact ih
          · rfl
      | register id name recogniser =>
          rcases Operation.apply_register w id name recogniser with hsame | ⟨-, hnew⟩
          · rw [hsame]
            exact ih
          · rw [hnew, hasTag_update]
            · exact ih
            · rfl

/-- A registration names a refused type if its recogniser declares one whose items stand for wrapped
values. -/
theorem Reachable.refusedType?_eq_some_iff (hw : w.Reachable) (recogniser : Recogniser C P)
    (type : ItemType) :
    recogniser.refusedType? w.wrappers = some type
      ↔ recogniser.declaredType? = some type ∧ w.Wraps type := by
  rw [Recogniser.refusedType?, Option.filter_eq_some_iff]
  refine and_congr_right fun _ => ?_
  cases type <;> simp [ItemType.isWrapper, Wraps, hw.mem_wrappers_iff]

end Wrappers

/-! ## Refusals -/

section Refusals

variable (w : World C P) (id : RegistryId) (name : String) (recogniser : Recogniser C P)

/-- The recogniser declares a type whose items stand for wrapped values. -/
def DeclaresWrapper : Prop := ∃ type, recogniser.declaredType? = some type ∧ w.Wraps type

/-- A case of the registry has the name. -/
def Taken : Prop := ∃ c ∈ (w.registry id).cases, c.name = name

/-- The recogniser nests the registry itself, or one that has it nested at some depth. -/
def NestsItself : Prop := ∃ child, recogniser.child? = some child ∧ ReflTransGen w.Nests id child

/-- The first fault of a registration.  Each fault stands behind those that are looked for
earlier. -/
inductive Refuses : RegistrationError → Prop
  | wrapperType (type : ItemType) (hdeclared : recogniser.declaredType? = some type)
      (hwraps : w.Wraps type) : Refuses (.wrapperType (w.registry id).label name type)
  | sealedRegistry (hplain : ¬ w.DeclaresWrapper recogniser)
      (hsealed : (w.registry id).isSealed = true) :
      Refuses (.sealedRegistry (w.registry id).label name)
  | duplicateName (hplain : ¬ w.DeclaresWrapper recogniser)
      (hopen : (w.registry id).isSealed = false) (htaken : w.Taken id name) :
      Refuses (.duplicateName (w.registry id).label name)
  | recursiveNesting (hplain : ¬ w.DeclaresWrapper recogniser)
      (hopen : (w.registry id).isSealed = false) (hfree : ¬ w.Taken id name) (child : RegistryId)
      (hchild : recogniser.child? = some child) (hpath : ReflTransGen w.Nests id child) :
      Refuses (.recursiveNesting (w.registry id).label name (w.registry child).label)

variable {w} {id} {name} {recogniser}

theorem Reachable.refusedType?_eq_none_iff (hw : w.Reachable) :
    recogniser.refusedType? w.wrappers = none ↔ ¬ w.DeclaresWrapper recogniser := by
  rw [Option.eq_none_iff_forall_ne_some, DeclaresWrapper, not_exists]
  exact forall_congr' fun type => not_congr (hw.refusedType?_eq_some_iff recogniser type)

theorem Reachable.mem_places_iff_taken (hw : w.Reachable) :
    name ∈ (w.registry id).places ↔ w.Taken id name :=
  (hw.sound.ordered id).mem_places_iff name

/-- The fault that is found first is the first of those that there are. -/
theorem Reachable.refuses_of_fault? (hw : w.Reachable) {error : RegistrationError}
    (h : w.fault? id name recogniser = some error) : w.Refuses id name recogniser error := by
  simp only [fault?] at h
  split at h
  next type htype =>
    cases h
    obtain ⟨hdeclared, hwraps⟩ := (hw.refusedType?_eq_some_iff recogniser type).mp htype
    exact .wrapperType type hdeclared hwraps
  next htype =>
    have hplain := hw.refusedType?_eq_none_iff.mp htype
    split at h
    next hsealed =>
      cases h
      exact .sealedRegistry hplain hsealed
    next hsealed =>
      have hopen : (w.registry id).isSealed = false := by simpa using hsealed
      split at h
      next hname =>
        cases h
        exact .duplicateName hplain hopen (hw.mem_places_iff_taken.mp (by simpa using hname))
      next hname =>
        have hfree : ¬ w.Taken id name := fun htaken =>
          hname (by simpa using hw.mem_places_iff_taken.mpr htaken)
        split at h
        next child hchild =>
          split at h
          next hreaches =>
            cases h
            exact .recursiveNesting hplain hopen hfree child hchild
              ((reaches_iff w child id).mp hreaches)
          next => cases h
        next => cases h

/-- A fault that there is, and that is the first, is found. -/
theorem Reachable.fault?_of_refuses (hw : w.Reachable) {error : RegistrationError}
    (h : w.Refuses id name recogniser error) : w.fault? id name recogniser = some error := by
  cases h with
  | wrapperType type hdeclared hwraps =>
      have htype := (hw.refusedType?_eq_some_iff recogniser type).mpr ⟨hdeclared, hwraps⟩
      simp [fault?, htype]
  | sealedRegistry hplain hsealed =>
      simp [fault?, hw.refusedType?_eq_none_iff.mpr hplain, hsealed]
  | duplicateName hplain hopen htaken =>
      have hname := hw.mem_places_iff_taken.mpr htaken
      simp [fault?, hw.refusedType?_eq_none_iff.mpr hplain, hopen, hname]
  | recursiveNesting hplain hopen hfree child hchild hpath =>
      have hname := hw.mem_places_iff_taken.not.mpr hfree
      have hreaches := (reaches_iff w child id).mpr hpath
      simp [fault?, hw.refusedType?_eq_none_iff.mpr hplain, hopen, hname, hchild, hreaches]

/-- A registration has no fault if nothing stands against it. -/
theorem Reachable.fault?_eq_none_iff (hw : w.Reachable) :
    w.fault? id name recogniser = none ↔
      ¬ w.DeclaresWrapper recogniser ∧ (w.registry id).isSealed = false ∧ ¬ w.Taken id name ∧
        ¬ w.NestsItself id recogniser := by
  have hedge : (∀ child, recogniser.child? = some child → ¬ ReflTransGen w.Nests id child) ↔
      ¬ w.NestsItself id recogniser := by
    simp [NestsItself]
  rw [World.fault?_eq_none_iff, hw.refusedType?_eq_none_iff, hw.mem_places_iff_taken, hedge,
    and_assoc, and_assoc]

end Refusals

/-! ## The outcome -/

theorem register_eq_error_iff {w : World C P} {id : RegistryId} {name : String}
    {recogniser : Recogniser C P} {error : RegistrationError} :
    w.register id name recogniser = .error error ↔ w.fault? id name recogniser = some error := by
  cases h : w.fault? id name recogniser <;> simp [register, h]

theorem register_eq_ok_iff {w w' : World C P} {id : RegistryId} {name : String}
    {recogniser : Recogniser C P} {c : Case C P} :
    w.register id name recogniser = .ok (w', c) ↔ w.fault? id name recogniser = none ∧
      c = (w.registry id).nextCase name recogniser ∧ w' = w.update id fun r => r.push c := by
  cases h : w.fault? id name recogniser with
  | none =>
      simp only [register, h, Except.ok.injEq, Prod.mk.injEq, true_and]
      constructor
      · rintro ⟨rfl, rfl⟩
        exact ⟨rfl, rfl⟩
      · rintro ⟨rfl, rfl⟩
        exact ⟨rfl, rfl⟩
  | some error => simp [register, h]

/-- A world has one case more than another, at the end of one registry. -/
structure Appends (w w' : World C P) (id : RegistryId) (c : Case C P) : Prop where
  ordinal : c.ordinal = (w.registry id).size
  cases : (w'.registry id).cases = (w.registry id).cases ++ [c]
  places : (w'.registry id).places = (w.registry id).places.insert c.name c.ordinal
  label : (w'.registry id).label = (w.registry id).label
  flavor : (w'.registry id).flavor = (w.registry id).flavor
  tag : (w'.registry id).tag = (w.registry id).tag
  isSealed : (w'.registry id).isSealed = (w.registry id).isSealed
  /-- Every other registry is as it was. -/
  others : ∀ other, other ≠ id → w'.registry other = w.registry other
  size : w'.size = w.size
  wrappers : w'.wrappers = w.wrappers

/-- The next case of a registry goes to its end. -/
theorem appends_push {w : World C P} {id : RegistryId} (hid : id < w.size) (name : String)
    (recogniser : Recogniser C P) :
    w.Appends (w.update id fun r => r.push ((w.registry id).nextCase name recogniser)) id
      ((w.registry id).nextCase name recogniser) := by
  have hnew : (w.update id fun r => r.push ((w.registry id).nextCase name recogniser)).registry id
      = (w.registry id).push ((w.registry id).nextCase name recogniser) := by
    simp [registry_update, hid]
  refine ⟨rfl, ?_, ?_, ?_, ?_, ?_, ?_, fun other hne => ?_, size_update .., rfl⟩
  any_goals rw [hnew]; rfl
  simp [registry_update, hne]

/-- A registration in a reachable world is refused exactly for the first fault that it has, and
leaves the world as it is.  Without a fault it is accepted: the case it declares becomes the last
one of the registry, with the number of cases before it as its ordinal, and nothing else changes. -/
theorem Reachable.registration_decided {w : World C P} (hw : w.Reachable) (id : RegistryId)
    (name : String) (recogniser : Recogniser C P) :
    let operation := Operation.register id name recogniser
    (∀ error, w.register id name recogniser = .error error
      ↔ w.Refuses id name recogniser error) ∧
    (∀ error, w.register id name recogniser = .error error → operation.apply w = w) ∧
    ((∃ w' c, w.register id name recogniser = .ok (w', c)) ↔
      ¬ w.DeclaresWrapper recogniser ∧ (w.registry id).isSealed = false ∧ ¬ w.Taken id name ∧
        ¬ w.NestsItself id recogniser) ∧
    ∀ w' c, w.register id name recogniser = .ok (w', c) →
      operation.apply w = w' ∧ c = ⟨(w.registry id).label, name, (w.registry id).size,
        (w.registry id).tag, recogniser⟩ ∧ w.Appends w' id c := by
  intro operation
  refine ⟨fun error => ?_, fun error herror => ?_, ?_, fun w' c hok => ?_⟩
  · rw [register_eq_error_iff]
    exact ⟨hw.refuses_of_fault?, hw.fault?_of_refuses⟩
  · simp only [operation, Operation.apply, herror]
  · simp only [register_eq_ok_iff, ← hw.fault?_eq_none_iff]
    constructor
    · rintro ⟨w', c, hfault, -⟩
      exact hfault
    · exact fun hfault => ⟨_, _, hfault, rfl, rfl⟩
  · obtain ⟨hfault, rfl, rfl⟩ := register_eq_ok_iff.mp hok
    have hid : id < w.size := lt_size_of_isSealed_eq_false (of_fault?_eq_none hfault).1
    exact ⟨by simp only [operation, Operation.apply, hok], rfl, appends_push hid name recogniser⟩

/-- In the diamond the registry at the bottom refuses a case that would take a name twice and close
a cycle, and the first of the two faults is told.  Under a free name it takes one more case. -/
theorem diamond_registration_decided :
    let operation : Operation Empty Bool := .register 0 "int" (.nested 3 none)
    diamond.Reachable ∧ diamond.Taken 0 "int" ∧ diamond.reaches 3 0 = true ∧
      diamond.register 0 "int" (.nested 3 none) = .error (.duplicateName "Leaf" "int") ∧
      operation.apply diamond = diamond ∧
      ∃ w' c, diamond.register 0 "bool" (.ofType (.datum .bool) none) = .ok (w', c) ∧
        c.ordinal = 1 ∧ diamond.Appends w' 0 c := by
  intro operation
  have hopen : (diamond.registry 0).isSealed = false := by rw [diamond_leaf]
  have htaken : diamond.Taken 0 "int" := by simp [Taken, diamond_leaf]
  have hfree : ¬ diamond.Taken 0 "bool" := by simp [Taken, diamond_leaf]
  have hreaches : diamond.reaches 3 0 = true := (reaches_iff _ 3 0).mpr leaf_path_top
  have hnested : ¬ diamond.DeclaresWrapper (.nested 3 none) := by
    simp [DeclaresWrapper, Recogniser.declaredType?]
  have hbool : ¬ diamond.DeclaresWrapper (.ofType (.datum .bool) none) := by
    simp [DeclaresWrapper, Recogniser.declaredType?, Wraps]
  have hedge : ¬ diamond.NestsItself 0 (.ofType (.datum .bool) none) := by
    simp [NestsItself, Recogniser.child?]
  obtain ⟨hrefused, hsame, -, -⟩ :=
    diamond_reachable.registration_decided 0 "int" (.nested 3 none)
  have herror := (hrefused _).mpr (.duplicateName hnested hopen htaken)
  have hunchanged := hsame _ herror
  rw [diamond_leaf] at herror
  obtain ⟨-, -, haccepted, happends⟩ :=
    diamond_reachable.registration_decided 0 "bool" (.ofType (.datum .bool) none)
  obtain ⟨w', c, hok⟩ := haccepted.mpr ⟨hbool, hopen, hfree, hedge⟩
  obtain ⟨-, -, hnew⟩ := happends w' c hok
  have hordinal : c.ordinal = 1 := by rw [hnew.ordinal, diamond_leaf]; rfl
  exact ⟨diamond_reachable, htaken, hreaches, herror, hunchanged, w', c, hok, hordinal, hnew⟩

end CaseUnion.World
