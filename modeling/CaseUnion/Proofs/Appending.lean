import CaseUnion.Proofs.Locality
import CaseUnion.Proofs.Registration

/-!
# One more case

A registry takes new cases at any time, also while other registries have it nested, so a new case
may change what its registry answers and what every registry above it answers.  It changes nothing
for a value that was already decided (`Reachable.appending_spares_decided`).  A value is decided if
the registry accepted it before, because the new case comes last, or if the new case does not accept
it.  Nothing changes for registries that do not contain the registry either.  In each of these cases
the registries in question are closed under nesting, and on them the world answers as before.

What remains is a value that only the new case accepts.  The registry then wraps it under the new
case.
-/

namespace CaseUnion.World

open Relation (ReflTransGen TransGen)

variable {C P : Type}

/-- Some case of a registry casts a value. -/
def Accepts (w : World C P) (μ : Meaning C P) (block : Nat) (id : RegistryId) (v : Value) : Prop :=
  ∃ c ∈ (w.registry id).cases, (c.cast (Host.ofWorld w μ block) v).run.isSome = true

/-! ## The world with one more case -/

section Appended

variable {w w' : World C P} {id : RegistryId} {c : Case C P}

theorem appends_of_register {name : String} {recogniser : Recogniser C P}
    (hok : w.register id name recogniser = .ok (w', c)) : w.Appends w' id c := by
  obtain ⟨hfault, rfl, rfl⟩ := register_eq_ok_iff.mp hok
  have hid : id < w.size := lt_size_of_isSealed_eq_false (of_fault?_eq_none hfault).1
  exact appends_push hid name recogniser

/-- A registration that is possible and succeeds leads to a sound world. -/
theorem Sound.of_register (hw : w.Sound) {name : String} {recogniser : Recogniser C P}
    (hpossible : (Operation.register id name recogniser).Possible w)
    (hok : w.register id name recogniser = .ok (w', c)) : w'.Sound := by
  obtain ⟨hfault, rfl, rfl⟩ := register_eq_ok_iff.mp hok
  exact hw.push hfault hpossible

theorem Appends.mem_cases (h : w.Appends w' id c) : c ∈ (w'.registry id).cases := by
  rw [h.cases]
  exact List.mem_append_right _ (List.mem_singleton_self c)

/-! ## Decided values -/

variable {μ : Meaning C P} {blocks : Set Nat} {b b' : Nat} {v : Value} {other : RegistryId}

/-- The new case makes no difference to a value in a registry: the registry with the new case
accepted the value before, the new case does not accept it, or the two registries have nothing to do
with each other. -/
def Spares (w w' : World C P) (μ : Meaning C P) (b b' : Nat) (id : RegistryId) (c : Case C P)
    (v : Value) (other : RegistryId) : Prop :=
  w.Accepts μ b id v ∨ (c.cast (Host.ofWorld w' μ b') v).run = none ∨
    ¬ ReflTransGen w.Nests id other

/-- What the new case spares it spares in nested registries, too. -/
theorem Spares.child (h : w.Spares w' μ b b' id c v other) {child : RegistryId}
    (hchild : child ∈ w.children other) : w.Spares w' μ b b' id c v child :=
  h.imp_right (Or.imp_right fun hapart hpath => hapart (hpath.tail hchild))

/-- A spared registry is undisturbed once the registries nested in it answer alike.  If it is the
one with the new case, an earlier case recognises the value in both worlds, or the new one does
not. -/
theorem Spares.undisturbed (hw : w.Sound) (hw' : w'.Sound) (happends : w.Appends w' id c)
    (hblind : μ.Blind blocks v.terminal) (hb : b ∈ blocks) (hb' : b' ∈ blocks)
    (h : w.Spares w' μ b b' id c v other)
    (hchildren : ∀ child ∈ w.children other,
      Outlined b b' v.terminal (w.unmemoised hw.wellFounded μ b v.terminal child)
        (w'.unmemoised hw'.wellFounded μ b' v.terminal child)) :
    (w.registry other).Undisturbed μ (w'.unmemoised hw'.wellFounded μ b' v.terminal) v.terminal
      (w'.registry other) := by
  by_cases heq : other = id
  · subst heq
    refine ⟨happends.tag, [c], happends.cases, ?_⟩
    rcases h with ⟨d, hd, hcast⟩ | hnone | hapart
    · have hsees := d.recogniser.alike_sees hblind hb hb' fun child hchild =>
        hchildren child (Registry.mem_children hd hchild)
      rw [hw.cast_eq μ b hd, isSome_eq_of_rel hsees] at hcast
      exact .inl ⟨d, hd, hcast⟩
    · rw [hw'.cast_eq μ b' happends.mem_cases] at hnone
      exact .inr (List.forall_mem_singleton.mpr hnone)
    · exact absurd .refl hapart
  · rw [happends.others other heq]
    exact .refl _

/-- The registries nested in the registry with the new case answer as before. -/
theorem Sound.outlined_child_of_appends (hw : w.Sound) (hw' : w'.Sound)
    (happends : w.Appends w' id c) (hblind : μ.Blind blocks v.terminal) (hb : b ∈ blocks)
    (hb' : b' ∈ blocks) {child : RegistryId} (hchild : child ∈ w.children id) :
    Outlined b b' v.terminal (w.unmemoised hw.wellFounded μ b v.terminal child)
      (w'.unmemoised hw'.wellFounded μ b' v.terminal child) := by
  have hapart : ¬ ReflTransGen w.Nests id child := fun hpath =>
    Nesting.not_cycle hw.wellFounded id (TransGen.tail' hpath hchild)
  exact hw.outlined_of_closed hw' hblind hb hb' (w.Spares w' μ b b' id c v)
    (fun _ h _ => h.child)
    (fun _ h hchildren => h.undisturbed hw hw' happends hblind hb hb' hchildren)
    child (.inr (.inr hapart))

/-- A value that the registry did not accept and the new case recognises belongs to the new
case. -/
theorem Sound.firstSeen_of_appends (hw : w.Sound) (hw' : w'.Sound) (happends : w.Appends w' id c)
    (hblind : μ.Blind blocks v.terminal) (hb : b ∈ blocks) (hb' : b' ∈ blocks)
    (hnew : ¬ w.Accepts μ b id v) {item : Item}
    (hitem : c.recogniser.sees μ (w'.unmemoised hw'.wellFounded μ b' v.terminal) v.terminal
      = some item) :
    (w'.registry id).firstSeen μ (w'.unmemoised hw'.wellFounded μ b' v.terminal) v.terminal
      = some (c, item) := by
  have hold : ∀ d ∈ (w.registry id).cases,
      d.recogniser.sees μ (w'.unmemoised hw'.wellFounded μ b' v.terminal) v.terminal = none := by
    intro d hd
    have hsees := d.recogniser.alike_sees hblind hb hb' fun child hchild =>
      hw.outlined_child_of_appends hw' happends hblind hb hb' (Registry.mem_children hd hchild)
    by_contra hne
    refine hnew ⟨d, hd, ?_⟩
    rw [hw.cast_eq μ b hd, isSome_eq_of_rel hsees]
    exact Option.isSome_iff_ne_none.mpr hne
  rw [Registry.firstSeen, happends.cases, List.findSome?_append, findSome?_sees_eq_none hold,
    Option.none_or, List.findSome?_singleton, hitem]
  rfl

end Appended

/-! ## The law -/

/-- One more case changes no answer about a value that its registry accepted before or that the case
does not accept, and no answer of a registry that is not, and does not contain, the registry of the
case.  A value that only the new case accepts belongs to the new case from then on. -/
theorem Reachable.appending_spares_decided {w w' : World C P} (hw : w.Reachable)
    (μ : Meaning C P) {blocks : Set Nat} {b b' : Nat} (hb : b ∈ blocks) (hb' : b' ∈ blocks)
    {id : RegistryId} {name : String} {recogniser : Recogniser C P} {c : Case C P}
    (hpossible : (Operation.register id name recogniser).Possible w)
    (hok : w.register id name recogniser = .ok (w', c)) {v : Value}
    (hblind : μ.Blind blocks v.terminal) :
    (∀ other < w.size,
      (w.Accepts μ b id v ∨ (c.cast (Host.ofWorld w' μ b') v).run = none ∨
        ¬ ReflTransGen w.Nests id other) → w.Alike μ b b' w' other v) ∧
    (¬ w.Accepts μ b id v → ∀ item, (c.cast (Host.ofWorld w' μ b') v).run = some item →
      (∀ u : Union, u.terminal = v.terminal →
        ((Host.ofWorld w' μ b').which id u).run = some c.info) ∧
      ((Host.ofWorld w' μ b').wrapValue id v).run
        = some ⟨(w.registry id).tag, c.recogniser.stored b' v.terminal item⟩ ∧
      c.info.ordinal = (w.registry id).size) := by
  have hsound := hw.sound
  have hsound' := hsound.of_register hpossible hok
  have happends := appends_of_register hok
  refine ⟨fun other hother hspares => ?_, fun hnew item hcast => ?_⟩
  · have hother' : other < w'.size := happends.size ▸ hother
    exact hsound.alike_of_closed hsound' hblind hb hb' (w.Spares w' μ b b' id c v)
      (fun _ h _ => h.child)
      (fun _ h hchildren => h.undisturbed hsound hsound' happends hblind hb hb' hchildren)
      hspares hother hother'
  · rw [hsound'.cast_eq μ b' happends.mem_cases] at hcast
    have hfirst := hsound.firstSeen_of_appends hsound' happends hblind hb hb' hnew hcast
    have hid : id < w'.size := by
      by_contra hge
      have hmem := happends.mem_cases
      rw [registry_eq_vacant (Nat.le_of_not_lt hge)] at hmem
      cases hmem
    refine ⟨fun u hu => ?_, ?_, happends.ordinal⟩
    · rw [hsound'.which_eq, hu, ← Registry.map_firstSeen, hfirst]
      rfl
    · rw [hsound'.wrapValue_eq μ b' hid, unmemoised_eq, Registry.answer_eq, hfirst, happends.tag]
      rfl

/-- A new case at the bottom of the diamond makes no difference to a number at its top, since the
bottom accepted numbers before.  It is the case of truth values, which nothing accepted before. -/
theorem diamond_appending_spares_decided :
    let number : Value := .scalar ⟨0, 0⟩ (.int32 5)
    let truth : Value := .scalar ⟨0, 0⟩ (.bool true)
    ∃ w' c, diamond.register 0 "bool" (.ofType (.datum .bool) none) = .ok (w', c) ∧
      diamond.Accepts constantMeaning 7 0 number ∧ ReflTransGen diamond.Nests 0 3 ∧
      diamond.Alike constantMeaning 7 8 w' 3 number ∧ ¬ diamond.Accepts constantMeaning 7 0 truth ∧
      ((Host.ofWorld w' constantMeaning 8).which 0 ⟨⟨"leaf"⟩, truth⟩).run = some c.info ∧
      c.info.ordinal = 1 := by
  intro number truth
  have hfault : diamond.fault? 0 "bool" (.ofType (.datum .bool) none) = none := by
    rw [diamond_eq]
    cbv
  have hpossible :
      (Operation.register 0 "bool" (.ofType (.datum .bool) none)).Possible diamond := by
    intro child hchild
    cases hchild
  have hnumber : diamond.Accepts constantMeaning 7 0 number := ⟨_, int_mem_diamond_leaf, rfl⟩
  have htruth : ¬ diamond.Accepts constantMeaning 7 0 truth := by
    rintro ⟨d, hd, hcast⟩
    rw [diamond_leaf] at hd
    cases List.mem_singleton.mp hd
    exact absurd hcast Bool.false_ne_true
  obtain ⟨w', c, hok⟩ : ∃ w' c,
      diamond.register 0 "bool" (.ofType (.datum .bool) none) = .ok (w', c) :=
    ⟨_, _, register_eq_ok_iff.mpr ⟨hfault, rfl, rfl⟩⟩
  have hspares := (diamond_reachable.appending_spares_decided constantMeaning (Set.mem_univ 7)
    (Set.mem_univ 8) hpossible hok (constantMeaning_blind _ number)).1 3 top_lt_size_diamond
    (.inl hnumber)
  obtain ⟨-, rfl, rfl⟩ := register_eq_ok_iff.mp hok
  obtain ⟨hwhich, -, hordinal⟩ := (diamond_reachable.appending_spares_decided constantMeaning
    (Set.mem_univ 7) (Set.mem_univ 8) hpossible hok (constantMeaning_blind _ truth)).2 htruth
    truth.content rfl
  refine ⟨_, _, hok, hnumber, leaf_path_top, hspares, htruth, hwhich _ rfl, ?_⟩
  rw [hordinal, diamond_leaf]
  rfl

end CaseUnion.World
