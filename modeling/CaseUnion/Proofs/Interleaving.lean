import CaseUnion.Proofs.Representation

/-!
# Interleavings of registrations

Registrations and seals of different registries commute, as long as all registrations succeed
(`Reachable.interleavings_agree`).  For a registration looks at three things.  The tags of the
wrapper types stay as they are.  The registry itself is changed by its own operations only, which
come in their own order.  The nesting graph is what the order matters for: whether an edge may be
added depends on the edges that are there.  But all of them are edges of the last world, which has
no cycle, so no order can meet one on the way.

The argument swaps two neighbours (`Operation.attempt_swap`).  An operation can be moved to the
front past operations of other registries, and so one interleaving is turned into another.
-/

namespace CaseUnion

open Relation (ReflTransGen TransGen)

variable {C P : Type}

/-! ## Changes of one registry -/

namespace World

variable {w : World C P}

/-- A change counts by what it does to the registry as it is. -/
theorem update_congr {id : RegistryId} {change change' : Registry C P → Registry C P}
    (h : change (w.registry id) = change' (w.registry id)) :
    w.update id change = w.update id change' := by
  have hregistries : w.registries.modify id change = w.registries.modify id change' := by
    refine List.ext_getElem? fun i => ?_
    rw [List.getElem?_modify, List.getElem?_modify]
    cases hi : w.registries[i]? with
    | none => rfl
    | some r =>
        by_cases heq : id = i
        · subst heq
          have hr : w.registry id = r := by rw [registry, hi]; rfl
          simp [← hr, h]
        · simp [heq]
  rw [update, update, hregistries]

/-- Changes of two registries commute. -/
theorem update_comm {i j : RegistryId} (hne : i ≠ j)
    (change change' : Registry C P → Registry C P) :
    (w.update i change).update j change' = (w.update j change').update i change := by
  simp only [update]
  rw [List.modify_modify_ne change change' w.registries hne]

theorem registry_update_of_ne {i j : RegistryId} (hne : j ≠ i)
    (change : Registry C P → Registry C P) : (w.update i change).registry j = w.registry j := by
  rw [registry_update, if_neg fun h => hne h.1]

end World

/-! ## Operations that succeed -/

namespace Operation

/-- The registry that an operation changes. -/
def target? : Operation C P → Option RegistryId
  | create .. => none
  | sealRegistry id => some id
  | register id _ _ => some id

/-- The registry that an operation nests. -/
def child? : Operation C P → Option RegistryId
  | register _ _ recogniser => recogniser.child?
  | create .. | sealRegistry _ => none

/-- What an operation makes of its registry. -/
def change : Operation C P → Registry C P → Registry C P
  | create .. => id
  | sealRegistry _ => fun r => { r with isSealed := true }
  | register _ name recogniser => fun r => r.push (r.nextCase name recogniser)

/-- What an operation asks of its registry. -/
def Suits (wrappers : List Tag) (r : Registry C P) : Operation C P → Prop
  | register _ name recogniser =>
      recogniser.refusedType? wrappers = none ∧ r.isSealed = false ∧ name ∉ r.places
  | create .. | sealRegistry _ => True

/-- The world after an operation, or the fault of a registration. -/
def attempt (w : World C P) : Operation C P → Except RegistrationError (World C P)
  | create label flavor tag => .ok (w.create label flavor tag)
  | sealRegistry id => .ok (w.sealRegistry id)
  | register id name recogniser => (w.register id name recogniser).map Prod.fst

variable {w w' : World C P} {operation : Operation C P} {id : RegistryId}

/-- An operation on a registry succeeds if it suits the registry and closes no cycle, and then it
changes that registry and nothing else. -/
theorem attempt_eq_ok_iff (htarget : operation.target? = some id) :
    operation.attempt w = .ok w' ↔
      operation.Suits w.wrappers (w.registry id) ∧
      (∀ child, operation.child? = some child → ¬ ReflTransGen w.Nests id child) ∧
      w' = w.update id operation.change := by
  cases operation with
  | create label flavor tag => cases htarget
  | sealRegistry other =>
      cases htarget
      simp [attempt, Suits, child?, change, World.sealRegistry, eq_comm]
  | register other name recogniser =>
      cases htarget
      have hchange : (w.update id fun r => r.push ((w.registry id).nextCase name recogniser))
          = w.update id (register id name recogniser).change := World.update_congr rfl
      rw [← and_assoc, Suits, child?, ← World.fault?_eq_none_iff, ← hchange]
      cases hfault : w.fault? id name recogniser with
      | none => simp [attempt, World.register, hfault, Except.map, eq_comm]
      | some error => simp [attempt, World.register, hfault, Except.map]

/-- An operation that suits its registry adds at most the edge from the registry that it nests. -/
theorem nests_update_change (htarget : operation.target? = some id)
    (hsuits : operation.Suits w.wrappers (w.registry id)) (a b : RegistryId) :
    (w.update id operation.change).Nests a b
      ↔ w.Nests a b ∨ (operation.child? = some a ∧ b = id) := by
  cases operation with
  | create label flavor tag => cases htarget
  | sealRegistry other =>
      cases htarget
      have hnests := w.nests_sealRegistry id
      rw [World.sealRegistry] at hnests
      simp [change, hnests, child?]
  | register other name recogniser =>
      cases htarget
      have hid : id < w.size := World.lt_size_of_isSealed_eq_false hsuits.2.1
      have hchange : (w.update id (register id name recogniser).change)
          = w.update id fun r => r.push ((w.registry id).nextCase name recogniser) :=
        World.update_congr rfl
      rw [hchange, World.nests_push w hid]
      rfl

/-- An operation that suits its registry makes of it what it is to make of it.  Where there is no
registry the vacant one is sealed, and a registration does not suit it. -/
theorem registry_update_change (hsuits : operation.Suits w.wrappers (w.registry id)) :
    (w.update id operation.change).registry id = operation.change (w.registry id) := by
  rw [World.registry_update]
  by_cases hid : id < w.size
  · rw [if_pos ⟨rfl, hid⟩]
  · have hvacant := World.registry_eq_vacant (Nat.le_of_not_lt hid)
    rw [if_neg fun h => hid h.2, hvacant]
    rw [hvacant] at hsuits
    cases operation with
    | create label flavor tag => rfl
    | sealRegistry other => rfl
    | register other name recogniser => cases hsuits.2.1

/-- An operation that succeeds is one that is done. -/
theorem apply_of_attempt (h : operation.attempt w = .ok w') : operation.apply w = w' := by
  cases operation with
  | create label flavor tag => exact Except.ok.inj h
  | sealRegistry id => exact Except.ok.inj h
  | register id name recogniser =>
      simp only [attempt] at h
      simp only [apply]
      cases hregister : w.register id name recogniser with
      | error error => rw [hregister] at h; cases h
      | ok result => rw [hregister] at h; exact Except.ok.inj h

theorem later_of_attempt (hpossible : operation.Possible w) (h : operation.attempt w = .ok w') :
    w.Later w' := by
  rw [← apply_of_attempt h]
  exact .step .refl operation hpossible

/-- What is possible stays possible, since registries stay what they are. -/
theorem Possible.later (h : operation.Possible w) (hlater : w.Later w') :
    operation.Possible w' := by
  cases operation with
  | create label flavor tag => trivial
  | sealRegistry id => trivial
  | register id name recogniser =>
      intro child hchild
      obtain ⟨hlt, hflavor⟩ := h child hchild
      exact ⟨hlt.trans_le hlater.size_le, (hlater.extends hlt).flavor.trans hflavor⟩

/-- Two operations on different registries that succeed one after the other succeed in the other
order, and end in the same world.  Neither changes the registry of the other one.  Without the first
there are fewer edges for the second to close a cycle with.  A path that the first would close to a
cycle after the second is there in the last world, too. -/
theorem attempt_swap (hw : w.Reachable) {first second : Operation C P} {i j : RegistryId}
    (hfirst : first.target? = some i) (hsecond : second.target? = some j) (hne : i ≠ j)
    (hpossible : first.Possible w) (hpossible' : second.Possible w) {middle final : World C P}
    (h : first.attempt w = .ok middle) (h' : second.attempt middle = .ok final) :
    ∃ middle', second.attempt w = .ok middle' ∧ first.attempt middle' = .ok final := by
  have hmiddle := later_of_attempt hpossible h
  have hfinal := later_of_attempt (hpossible'.later hmiddle) h'
  have hsound := ((hw.later hmiddle).later hfinal).sound
  obtain ⟨hsuits, hedge, rfl⟩ := (attempt_eq_ok_iff hfirst).mp h
  obtain ⟨hsuits', hedge', rfl⟩ := (attempt_eq_ok_iff hsecond).mp h'
  have hold : (w.update i first.change).registry j = w.registry j :=
    World.registry_update_of_ne hne.symm first.change
  have hold' : (w.update j second.change).registry i = w.registry i :=
    World.registry_update_of_ne hne second.change
  have hsuitsNow : second.Suits w.wrappers (w.registry j) := hold ▸ hsuits'
  refine ⟨w.update j second.change, (attempt_eq_ok_iff hsecond).mpr ⟨hsuitsNow, ?_, rfl⟩,
    (attempt_eq_ok_iff hfirst).mpr ⟨hold'.symm ▸ hsuits, ?_, World.update_comm hne _ _⟩⟩
  · intro child hchild hpath
    refine hedge' child hchild (ReflTransGen.mono (fun a b hnests => ?_) _ _ hpath)
    exact (nests_update_change hfirst hsuits a b).mpr (.inl hnests)
  · intro child hchild hpath
    have hmono : ∀ a b, (w.update j second.change).Nests a b →
        ((w.update i first.change).update j second.change).Nests a b := by
      intro a b hnests
      rw [World.update_comm hne]
      exact (nests_update_change hfirst (hold'.symm ▸ hsuits) a b).mpr (.inl hnests)
    have hclosing : ((w.update i first.change).update j second.change).Nests child i := by
      rw [World.update_comm hne]
      exact (nests_update_change hfirst (hold'.symm ▸ hsuits) child i).mpr (.inr ⟨hchild, rfl⟩)
    exact Nesting.not_cycle hsound.wellFounded i
      (TransGen.tail' (ReflTransGen.mono hmono _ _ hpath) hclosing)

end Operation

/-! ## Runs in which everything succeeds -/

namespace World

/-- The world after operations, or the first fault that one of them meets. -/
def attemptAll (w : World C P) (run : List (Operation C P)) :
    Except RegistrationError (World C P) :=
  run.foldlM Operation.attempt w

/-- A run consists of given operations of each registry in their given order. -/
structure Interleaves (parts : RegistryId → List (Operation C P)) (run : List (Operation C P)) :
    Prop where
  /-- No registry is made. -/
  targeted : ∀ operation ∈ run, ∃ id, operation.target? = some id
  parts : ∀ id, run.filter (fun operation => operation.target? = some id) = parts id

variable {w final : World C P} {operation : Operation C P} {run rest : List (Operation C P)}

theorem attemptAll_cons_eq_ok_iff :
    w.attemptAll (operation :: run) = .ok final ↔
      ∃ w', operation.attempt w = .ok w' ∧ w'.attemptAll run = .ok final := by
  rw [attemptAll, List.foldlM_cons]
  cases operation.attempt w with
  | error error =>
      constructor
      · intro h
        cases h
      · rintro ⟨w', h, -⟩
        cases h
  | ok w' =>
      constructor
      · intro h
        exact ⟨w', rfl, h⟩
      · rintro ⟨_, ⟨⟩, h⟩
        exact h

/-- A run in which everything succeeds is one in which everything is done. -/
theorem foldl_apply_of_attemptAll (h : w.attemptAll run = .ok final) :
    run.foldl Operation.apply w = final := by
  induction run generalizing w with
  | nil => exact Except.ok.inj h
  | cons operation run ih =>
      obtain ⟨w', hw', h⟩ := attemptAll_cons_eq_ok_iff.mp h
      rw [List.foldl_cons, Operation.apply_of_attempt hw']
      exact ih h

/-- An operation can be moved to the front past operations on other registries. -/
theorem attemptAll_move (hw : w.Reachable) {id : RegistryId}
    (htarget : operation.target? = some id) (hpossible : operation.Possible w)
    (hrun : ∀ other ∈ run, (∃ i, other.target? = some i ∧ i ≠ id) ∧ other.Possible w)
    (h : w.attemptAll (run ++ operation :: rest) = .ok final) :
    w.attemptAll (operation :: (run ++ rest)) = .ok final := by
  induction run generalizing w with
  | nil => exact h
  | cons first run ih =>
      obtain ⟨⟨i, hfirst, hne⟩, hpossible'⟩ := hrun first (List.mem_cons_self ..)
      obtain ⟨middle, hmiddle, h⟩ := attemptAll_cons_eq_ok_iff.mp h
      have hlater := Operation.later_of_attempt hpossible' hmiddle
      have hmoved := ih (hw.later hlater) (hpossible.later hlater)
        (fun other hother => (hrun other (List.mem_cons_of_mem _ hother)).imp_right
          (Operation.Possible.later · hlater)) h
      obtain ⟨last, hlast, hrest⟩ := attemptAll_cons_eq_ok_iff.mp hmoved
      obtain ⟨middle', hmiddle', hlast'⟩ :=
        Operation.attempt_swap hw hfirst htarget hne hpossible' hpossible hmiddle hlast
      exact attemptAll_cons_eq_ok_iff.mpr
        ⟨middle', hmiddle', attemptAll_cons_eq_ok_iff.mpr ⟨last, hlast', hrest⟩⟩

/-- What comes first in one interleaving comes in another one after operations on other registries.
Without it the two are interleavings of the same operations again, since in both it is the first of
its registry. -/
theorem Interleaves.exists_split {parts : RegistryId → List (Operation C P)}
    {run' : List (Operation C P)} (hrun : Interleaves parts run)
    (hrun' : Interleaves parts (operation :: run')) {id : RegistryId}
    (htarget : operation.target? = some id) :
    ∃ before after, run = before ++ operation :: after ∧
      (∀ other ∈ before, ∃ i, other.target? = some i ∧ i ≠ id) ∧
      ∃ parts', Interleaves parts' (before ++ after) ∧ Interleaves parts' run' := by
  have hparts := fun i => (hrun.parts i).trans (hrun'.parts i).symm
  have hfirst := hparts id
  rw [List.filter_cons_of_pos (by simpa using htarget)] at hfirst
  obtain ⟨before, after, rfl, hbefore, -, -⟩ := List.filter_eq_cons_iff.mp hfirst
  refine ⟨before, after, rfl, fun other hother => ?_,
    fun i => run'.filter fun other => other.target? = some i, ⟨fun other hother => ?_, fun i => ?_⟩,
    fun other hother => hrun'.targeted other (List.mem_cons_of_mem _ hother), fun _ => rfl⟩
  · obtain ⟨i, hi⟩ := hrun.targeted other (List.mem_append_left _ hother)
    refine ⟨i, hi, fun heq => hbefore other hother ?_⟩
    simp [hi, heq]
  · refine hrun.targeted other ?_
    rcases List.mem_append.mp hother with hother | hother
    · exact List.mem_append_left _ hother
    · exact List.mem_append_right _ (List.mem_cons_of_mem _ hother)
  · have hboth := hparts i
    by_cases heq : i = id
    · subst heq
      have hnone : before.filter (fun other => other.target? = some i) = [] :=
        List.filter_eq_nil_iff.mpr hbefore
      simpa [List.filter_append, htarget, hnone] using hboth
    · have hother : operation.target? ≠ some i := by simp [htarget, Ne.symm heq]
      simpa [List.filter_append, hother] using hboth

/-- One interleaving is turned into another one by moving to the front, one after the other, the
operations that come first in it. -/
theorem attemptAll_of_interleaves {parts : RegistryId → List (Operation C P)}
    {run' : List (Operation C P)} (hw : w.Reachable) (hrun : Interleaves parts run)
    (hrun' : Interleaves parts run') (hpossible : ∀ operation ∈ run, operation.Possible w)
    (h : w.attemptAll run = .ok final) : w.attemptAll run' = .ok final := by
  induction run' generalizing w parts run with
  | nil =>
      cases run with
      | nil => exact h
      | cons operation run =>
          obtain ⟨id, htarget⟩ := hrun.targeted operation (List.mem_cons_self ..)
          have hparts := (hrun.parts id).trans (hrun'.parts id).symm
          simp [htarget] at hparts
  | cons operation run' ih =>
      obtain ⟨id, htarget⟩ := hrun'.targeted operation (List.mem_cons_self ..)
      obtain ⟨before, after, rfl, hbefore, parts', hrest, hrest'⟩ :=
        hrun.exists_split hrun' htarget
      have hfirst := hpossible operation (List.mem_append_right _ (List.mem_cons_self ..))
      have hmoved : w.attemptAll (operation :: (before ++ after)) = .ok final :=
        attemptAll_move hw htarget hfirst
          (fun other hother =>
            ⟨hbefore other hother, hpossible other (List.mem_append_left _ hother)⟩) h
      obtain ⟨w', hw', h⟩ := attemptAll_cons_eq_ok_iff.mp hmoved
      have hlater := Operation.later_of_attempt hfirst hw'
      refine attemptAll_cons_eq_ok_iff.mpr
        ⟨w', hw', ih (hw.later hlater) hrest hrest' (fun other hother => ?_) h⟩
      refine Operation.Possible.later (hpossible other ?_) hlater
      rcases List.mem_append.mp hother with hother | hother
      · exact List.mem_append_left _ hother
      · exact List.mem_append_right _ (List.mem_cons_of_mem _ hother)

/-- A run leaves each registry as the operations on that registry alone would. -/
theorem registry_of_attemptAll (hrun : ∀ operation ∈ run, ∃ id, operation.target? = some id)
    (h : w.attemptAll run = .ok final) (id : RegistryId) :
    final.registry id = (run.filter fun operation => operation.target? = some id).foldl
      (fun r operation => operation.change r) (w.registry id) := by
  induction run generalizing w with
  | nil =>
      cases h
      rfl
  | cons operation run ih =>
      obtain ⟨target, htarget⟩ := hrun operation (List.mem_cons_self ..)
      obtain ⟨w', hw', h⟩ := attemptAll_cons_eq_ok_iff.mp h
      rw [ih (fun other hother => hrun other (List.mem_cons_of_mem _ hother)) h]
      obtain ⟨hsuits, -, rfl⟩ := (Operation.attempt_eq_ok_iff htarget).mp hw'
      by_cases heq : target = id
      · subst heq
        rw [Operation.registry_update_change hsuits,
          List.filter_cons_of_pos (by simpa using htarget), List.foldl_cons]
      · rw [registry_update_of_ne (Ne.symm heq), List.filter_cons_of_neg (by simp [htarget, heq])]

/-- Registrations and seals of registries that exist commute.  If in one interleaving every
registration succeeds, then in every other interleaving that keeps the order of each registry every
registration succeeds, too, and both end in one world, so everything that registries and handles
answer there is the same.  Each registry is what its own operations alone make of it. -/
theorem Reachable.interleavings_agree (hw : w.Reachable)
    {parts : RegistryId → List (Operation C P)} {run run' : List (Operation C P)}
    (hrun : Interleaves parts run) (hrun' : Interleaves parts run')
    (hpossible : ∀ id, ∀ operation ∈ parts id, operation.Possible w)
    (h : w.attemptAll run = .ok final) :
    w.attemptAll run' = .ok final ∧
      run'.foldl Operation.apply w = final ∧ run.foldl Operation.apply w = final ∧
      ∀ id, final.registry id
        = (parts id).foldl (fun r operation => operation.change r) (w.registry id) := by
  have hpossible' : ∀ operation ∈ run, operation.Possible w := by
    intro operation hoperation
    obtain ⟨id, htarget⟩ := hrun.targeted operation hoperation
    refine hpossible id operation ?_
    rw [← hrun.parts id]
    exact List.mem_filter.mpr ⟨hoperation, by simpa using htarget⟩
  have hother := attemptAll_of_interleaves hw hrun hrun' hpossible' h
  refine ⟨hother, foldl_apply_of_attemptAll hother, foldl_apply_of_attemptAll h, fun id => ?_⟩
  rw [registry_of_attemptAll hrun.targeted h id, hrun.parts id]

/-- The diamond, filled from the bottom upwards or from the top downwards, with the bottom and the
right branch sealed. -/
theorem diamond_interleavings_agree :
    let w : World Empty Bool :=
      ([.create "Leaf" .matching ⟨"leaf"⟩, .create "Left" .matching ⟨"left"⟩,
        .create "Right" .matching ⟨"right"⟩, .create "Top" .matching ⟨"top"⟩] :
          List (Operation Empty Bool)).foldl Operation.apply {}
    let upwards : List (Operation Empty Bool) :=
      [.register 0 "int" (.ofType (.datum .int32) none), .sealRegistry 0,
        .register 1 "guarded" (.nested 0 (some false)), .register 2 "plain" (.nested 0 none),
        .sealRegistry 2, .register 3 "left" (.nested 1 none), .register 3 "right" (.nested 2 none)]
    let downwards : List (Operation Empty Bool) :=
      [.register 3 "left" (.nested 1 none), .register 3 "right" (.nested 2 none),
        .register 2 "plain" (.nested 0 none), .register 1 "guarded" (.nested 0 (some false)),
        .sealRegistry 2, .register 0 "int" (.ofType (.datum .int32) none), .sealRegistry 0]
    let parts := fun id => upwards.filter fun operation => operation.target? = some id
    w.Reachable ∧ Interleaves parts upwards ∧ Interleaves parts downwards ∧
      w.attemptAll upwards = .ok ((diamond.sealRegistry 0).sealRegistry 2) ∧
      w.attemptAll downwards = .ok ((diamond.sealRegistry 0).sealRegistry 2) := by
  intro w upwards downwards parts
  have hw : w.Reachable := .step (.step (.step (.step .start (.create ..) trivial)
    (.create ..) trivial) (.create ..) trivial) (.create ..) trivial
  have hupwards : Interleaves parts upwards :=
    ⟨by simp [upwards, Operation.target?], fun _ => rfl⟩
  have hdownwards : Interleaves parts downwards := by
    refine ⟨by simp [downwards, Operation.target?], fun id => ?_⟩
    match id with
    | 0 | 1 | 2 | 3 => rfl
    | _ + 4 => rfl
  have hempty : w = {
      registries := [
        { label := "Leaf", flavor := .matching, tag := ⟨"leaf"⟩ },
        { label := "Left", flavor := .matching, tag := ⟨"left"⟩ },
        { label := "Right", flavor := .matching, tag := ⟨"right"⟩ },
        { label := "Top", flavor := .matching, tag := ⟨"top"⟩ }],
      wrappers := [⟨"top"⟩, ⟨"right"⟩, ⟨"left"⟩, ⟨"leaf"⟩] } := by cbv
  have hchild : ∀ child < 3, child < w.size ∧ (w.registry child).flavor = .matching := by
    rw [hempty]
    decide
  have hpossible : ∀ id, ∀ operation ∈ parts id, operation.Possible w := by
    intro id operation hoperation
    have hmem := (List.mem_filter.mp hoperation).1
    simp only [upwards, List.mem_cons, List.not_mem_nil, or_false] at hmem
    rcases hmem with rfl | rfl | rfl | rfl | rfl | rfl | rfl <;>
      simp [Operation.Possible, Recogniser.child?, hchild]
  have h : w.attemptAll upwards = .ok ((diamond.sealRegistry 0).sealRegistry 2) := by
    rw [diamond_eq, hempty]
    cbv
  exact ⟨hw, hupwards, hdownwards, h, (hw.interleavings_agree hupwards hdownwards hpossible h).1⟩

end World

end CaseUnion
