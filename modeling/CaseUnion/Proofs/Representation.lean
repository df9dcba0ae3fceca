import CaseUnion.Proofs.History
import Mathlib.Data.List.Induction

/-!
# What a registry tells of its cases

A registry keeps its cases in a list and their places in a map, and each case keeps its ordinal and
the label of its registry.  In a reachable world these agree (`Registry.Consistent`), so the number
of cases, their list, the map by name and the search by name tell of one set of cases.

Operations add to the list of a registry at its end and do nothing else to it.  What a registry told
is therefore a prefix of what it tells later, and once sealed it tells the same for ever.  The step
is `Operation.extends_apply`, and `Later.extends` carries it over a run.
-/

namespace CaseUnion

variable {C P : Type}

/-! ## List and map of one registry -/

namespace Registry

/-- The list of the cases, the map of their places and what the cases keep agree. -/
structure Consistent (r : Registry C P) : Prop extends r.Ordered where
  label : ∀ c ∈ r.cases, c.registry = r.label
  /-- The map of places has one entry for each case. -/
  size_places : r.places.size = r.cases.length

variable {r : Registry C P}

/-- Names differ, since the map gives one place for each. -/
theorem Ordered.nodup_names (hr : r.Ordered) : (r.cases.map Case.name).Nodup := by
  refine List.pairwise_map.mpr (List.pairwise_iff_getElem.mpr fun i j hi hj hlt heq => ?_)
  have hplace := (hr.places r.cases[j].name i).mpr ⟨_, List.getElem?_eq_getElem hi, heq⟩
  have hplace' := (hr.places r.cases[j].name j).mpr ⟨_, List.getElem?_eq_getElem hj, rfl⟩
  exact absurd (Option.some.inj (hplace.symm.trans hplace')) (Nat.ne_of_lt hlt)

/-- The search by name finds a case if and only if the list has it under the name. -/
theorem Ordered.caseNamed_eq_some_iff (hr : r.Ordered) (name : String) (info : CaseInfo) :
    r.caseNamed name = some info ↔ info ∈ r.infos ∧ info.name = name := by
  rw [infos, List.mem_map]
  constructor
  · intro h
    obtain ⟨i, hi, h⟩ := Option.bind_eq_some_iff.mp h
    obtain ⟨c, hc, h⟩ := Option.bind_eq_some_iff.mp h
    obtain ⟨d, hd, hname⟩ := (hr.places name i).mp hi
    cases hc.symm.trans hd
    cases h
    exact ⟨⟨c, List.mem_of_getElem? hc, rfl⟩, hname⟩
  · rintro ⟨⟨c, hc, rfl⟩, hname⟩
    obtain ⟨i, hi⟩ := List.mem_iff_getElem?.mp hc
    have hplace := (hr.places name i).mpr ⟨c, hi, hname⟩
    simp [caseNamed, hplace, hi]

end Registry

/-! ## The map by name -/

namespace Registry

/-- What cases tell, by name. -/
def named (infos : List CaseInfo) : Std.TreeMap String CaseInfo :=
  infos.foldl (fun map info => map.insert info.name info) ∅

theorem named_snoc (infos : List CaseInfo) (last : CaseInfo) :
    named (infos ++ [last]) = (named infos).insert last.name last := by
  simp [named]

/-- Where names differ, the map by name has what the list has. -/
theorem named_getElem?_eq_some_iff {infos : List CaseInfo}
    (h : (infos.map CaseInfo.name).Nodup) (name : String) (info : CaseInfo) :
    (named infos)[name]? = some info ↔ info ∈ infos ∧ info.name = name := by
  induction infos using List.reverseRecOn with
  | nil => simp [named]
  | append_singleton infos last ih =>
      rw [List.map_append, List.nodup_append] at h
      obtain ⟨hinfos, -, hlast⟩ := h
      have hne : ∀ other ∈ infos, other.name ≠ last.name := fun other hother =>
        hlast _ (List.mem_map_of_mem hother) _ (List.mem_singleton_self _)
      rw [named_snoc, Std.TreeMap.getElem?_insert, List.mem_append, List.mem_singleton]
      simp only [Std.compare_eq_iff_eq]
      split
      next heq =>
        subst heq
        constructor
        · rintro ⟨⟩
          exact ⟨.inr rfl, rfl⟩
        · rintro ⟨hold | rfl, hname⟩
          · exact absurd hname (hne info hold)
          · rfl
      next hother =>
        rw [ih hinfos]
        constructor
        · rintro ⟨hold, hname⟩
          exact ⟨.inl hold, hname⟩
        · rintro ⟨hold | rfl, hname⟩
          · exact ⟨hold, hname⟩
          · exact absurd hname hother

/-- Where names differ, the map by name has one entry for each case. -/
theorem size_named {infos : List CaseInfo} (h : (infos.map CaseInfo.name).Nodup) :
    (named infos).size = infos.length := by
  induction infos using List.reverseRecOn with
  | nil => rfl
  | append_singleton infos last ih =>
      rw [List.map_append, List.nodup_append] at h
      obtain ⟨hinfos, -, hlast⟩ := h
      have hnew : last.name ∉ named infos := fun hmem => by
        rw [Std.TreeMap.mem_iff_isSome_getElem?, Option.isSome_iff_exists] at hmem
        obtain ⟨info, hinfo⟩ := hmem
        obtain ⟨hold, hname⟩ := (named_getElem?_eq_some_iff hinfos _ _).mp hinfo
        exact hlast _ (List.mem_map_of_mem hold) _ (List.mem_singleton_self _) hname
      rw [named_snoc, Std.TreeMap.size_insert, if_neg (by simpa using hnew), ih hinfos]
      simp

end Registry

/-! ## Every registry of a reachable world -/

namespace Registry

theorem Consistent.of_empty {r : Registry C P} (hcases : r.cases = []) (hplaces : r.places = ∅) :
    r.Consistent where
  toOrdered := .of_empty hcases hplaces
  label := by simp [hcases]
  size_places := by simp [hcases, hplaces]

/-- The next case under a free name keeps list and map in step. -/
theorem Consistent.push_nextCase {r : Registry C P} (hr : r.Consistent) {name : String}
    (hname : name ∉ r.places) (recogniser : Recogniser C P) :
    (r.push (r.nextCase name recogniser)).Consistent where
  toOrdered := hr.toOrdered.push_nextCase hname recogniser
  label c hc := by
    rcases List.mem_append.mp hc with hold | hnew
    · exact hr.label c hold
    · rw [List.mem_singleton.mp hnew]
      rfl
  size_places := by
    have hnew : (r.nextCase name recogniser).name ∉ r.places := hname
    rw [places_push, Std.TreeMap.size_insert, if_neg (by simpa using hnew), hr.size_places]
    simp

end Registry

namespace World

/-- What empty registries have, and what sealing and new cases under free names keep, every registry
of a reachable world has. -/
theorem Reachable.forall_registry {w : World C P} (hw : w.Reachable) {p : Registry C P → Prop}
    (hempty : ∀ r : Registry C P, r.cases = [] → r.places = ∅ → p r)
    (hseal : ∀ r, p r → p { r with isSealed := true })
    (hpush : ∀ r name recogniser, p r → name ∉ r.places → p (r.push (r.nextCase name recogniser)))
    (id : RegistryId) : p (w.registry id) := by
  induction hw generalizing id with
  | start => exact hempty _ rfl rfl
  | @step w _ operation _ ih =>
      cases operation with
      | create label flavor tag =>
          rw [Operation.apply, registry_create]
          split
          · exact hempty _ rfl rfl
          · exact ih id
      | sealRegistry other =>
          rw [Operation.apply, World.sealRegistry, registry_update]
          split
          · exact hseal _ (ih other)
          · exact ih id
      | register other name recogniser =>
          rcases Operation.apply_register w other name recogniser with hsame | ⟨hfault, hnew⟩
          · rw [hsame]
            exact ih id
          · rw [hnew, registry_update]
            split
            · exact hpush _ name recogniser (ih other) (of_fault?_eq_none hfault).2.1
            · exact ih id

theorem Reachable.consistent {w : World C P} (hw : w.Reachable) (id : RegistryId) :
    (w.registry id).Consistent :=
  hw.forall_registry (fun _ => .of_empty)
    (fun _ hr => ⟨⟨hr.ordinal, hr.places⟩, hr.label, hr.size_places⟩)
    (fun _ _ recogniser hr hname => hr.push_nextCase hname recogniser) id

end World

/-! ## Runs -/

/-- The worlds that operations make from a world. -/
inductive World.Later (w : World C P) : World C P → Prop
  | refl : Later w w
  | step {w' : World C P} (h : Later w w') (operation : Operation C P)
      (hpossible : operation.Possible w') : Later w (operation.apply w')

theorem World.Reachable.later {w w' : World C P} (hw : w.Reachable) (h : w.Later w') :
    w'.Reachable := by
  induction h with
  | refl => exact hw
  | step _ operation hpossible ih => exact ih.step operation hpossible

/-- What operations leave of a registry. -/
structure Registry.Extends (r r' : Registry C P) : Prop where
  label : r'.label = r.label
  flavor : r'.flavor = r.flavor
  tag : r'.tag = r.tag
  cases : r.cases <+: r'.cases
  frozen : r.isSealed = true → r' = r

theorem Registry.Extends.refl (r : Registry C P) : r.Extends r :=
  ⟨rfl, rfl, rfl, List.prefix_rfl, fun _ => rfl⟩

theorem Registry.Extends.trans {r r' r'' : Registry C P} (h : r.Extends r') (h' : r'.Extends r'') :
    r.Extends r'' where
  label := h'.label.trans h.label
  flavor := h'.flavor.trans h.flavor
  tag := h'.tag.trans h.tag
  cases := h.cases.trans h'.cases
  frozen hsealed := by
    have hsame := h.frozen hsealed
    exact (h'.frozen (hsame ▸ hsealed)).trans hsame

/-- An operation adds at most one case to a registry, and none to a sealed one. -/
theorem Operation.extends_apply {w : World C P} {id : RegistryId} (hid : id < w.size)
    (operation : Operation C P) : (w.registry id).Extends ((operation.apply w).registry id) := by
  cases operation with
  | create label flavor tag =>
      rw [apply, World.registry_create, if_neg (Nat.ne_of_lt hid)]
      exact .refl _
  | sealRegistry other =>
      rw [apply, World.sealRegistry, World.registry_update]
      split
      next heq =>
        rw [heq.1]
        refine ⟨rfl, rfl, rfl, List.prefix_rfl, fun hsealed => ?_⟩
        rw [← hsealed]
      next => exact .refl _
  | register other name recogniser =>
      rcases apply_register w other name recogniser with hsame | ⟨hfault, hnew⟩
      · rw [hsame]
        exact .refl _
      · rw [hnew, World.registry_update]
        split
        next heq =>
          have hopen := (World.of_fault?_eq_none hfault).1
          rw [heq.1]
          refine ⟨rfl, rfl, rfl, List.prefix_append _ _, fun hsealed => ?_⟩
          rw [hopen] at hsealed
          cases hsealed
        next => exact .refl _

/-- No operation takes a registry away. -/
theorem Operation.size_le_apply (w : World C P) (operation : Operation C P) :
    w.size ≤ (operation.apply w).size := by
  cases operation with
  | create label flavor tag => simp [apply]
  | sealRegistry id => simp [apply, World.sealRegistry]
  | register id name recogniser =>
      rcases apply_register w id name recogniser with hsame | ⟨-, hnew⟩
      · rw [hsame]
      · rw [hnew, World.size_update]

namespace World

variable {w w' : World C P}

theorem Later.size_le (h : w.Later w') : w.size ≤ w'.size := by
  induction h with
  | refl => exact Nat.le_refl _
  | step _ operation _ ih => exact ih.trans (operation.size_le_apply _)

/-- A run adds cases to a registry at its end, and none to a sealed one. -/
theorem Later.extends (h : w.Later w') {id : RegistryId} (hid : id < w.size) :
    (w.registry id).Extends (w'.registry id) := by
  induction h with
  | refl => exact .refl _
  | step h operation _ ih => exact ih.trans (operation.extends_apply (hid.trans_le h.size_le))

/-- In a reachable world the list, the map by name and the search by name of a registry tell of one
set of cases, with ordinals and labels that agree.  What is told is a prefix of what is told later,
and is the same for ever from a seal on. -/
theorem Reachable.registries_faithful (hw : w.Reachable) :
    (∀ id, let r := w.registry id
      r.Consistent ∧ (r.cases.map Case.name).Nodup ∧ r.infos.length = r.size ∧
        r.byName.size = r.size ∧
        ∀ (name : String) (info : CaseInfo),
          (r.caseNamed name = some info ↔ info ∈ r.infos ∧ info.name = name) ∧
          (r.byName[name]? = some info ↔ info ∈ r.infos ∧ info.name = name)) ∧
    ∀ id < w.size,
      (∀ w', w.Later w' → (w.registry id).Extends (w'.registry id) ∧
        (w.registry id).infos <+: (w'.registry id).infos) ∧
      ∀ w', (w.sealRegistry id).Later w' → (w'.registry id).infos = (w.registry id).infos := by
  refine ⟨fun id => ?_, fun id hid => ⟨fun w' h => ?_, fun w' h => ?_⟩⟩
  · have hr := hw.consistent id
    have hnames := hr.nodup_names
    have hinfos : ((w.registry id).infos.map CaseInfo.name).Nodup := by
      rwa [Registry.infos, List.map_map]
    have hlength : (w.registry id).infos.length = (w.registry id).size := List.length_map _
    exact ⟨hr, hnames, hlength, (Registry.size_named hinfos).trans hlength, fun name info =>
      ⟨hr.caseNamed_eq_some_iff name info, Registry.named_getElem?_eq_some_iff hinfos name info⟩⟩
  · have hextends := h.extends hid
    exact ⟨hextends, hextends.cases.map Case.info⟩
  · have hnow : (w.sealRegistry id).registry id = { w.registry id with isSealed := true } := by
      rw [sealRegistry, registry_update, if_pos ⟨rfl, hid⟩]
    have hid' : id < (w.sealRegistry id).size := by
      rwa [sealRegistry, size_update]
    rw [(h.extends hid').frozen (by rw [hnow]), hnow]
    rfl

/-- In the diamond one more case at the bottom comes after the one that is there, and none comes
once the bottom is sealed. -/
theorem diamond_registries_faithful :
    let operation : Operation Empty Bool := .register 0 "bool" (.ofType (.datum .bool) none)
    let info : CaseInfo := ⟨"Leaf", "int", 0, .member⟩
    0 < diamond.size ∧ diamond.Later (operation.apply diamond) ∧
      (diamond.registry 0).caseNamed "int" = some info ∧
      [info] <+: ((operation.apply diamond).registry 0).infos ∧
      (diamond.sealRegistry 0).Later (operation.apply (diamond.sealRegistry 0)) ∧
      ((operation.apply (diamond.sealRegistry 0)).registry 0).infos = [info] := by
  intro operation info
  have hid : 0 < diamond.size := diamond_size ▸ Nat.succ_pos 3
  have hinfos : (diamond.registry 0).infos = [info] := by
    rw [diamond_leaf]
    rfl
  have hlater : ∀ w : World Empty Bool, w.Later (operation.apply w) := fun w =>
    .step .refl operation nofun
  obtain ⟨htells, hruns⟩ := diamond_reachable.registries_faithful
  have hnamed := ((htells 0).2.2.2.2 "int" info).1.mpr ⟨hinfos ▸ List.mem_singleton_self _, rfl⟩
  obtain ⟨hopen, hsealed⟩ := hruns 0 hid
  have hextends := (hopen _ (hlater diamond)).2
  rw [hinfos] at hextends hsealed
  exact ⟨hid, hlater _, hnamed, hextends, hlater _, hsealed _ (hlater _)⟩

end World

end CaseUnion
