import CaseUnion.Proofs.Walk

/-!
# The memo of a walk changes no answer

In a reachable world, where casts and predicates are plain functions, the three ways to discriminate
a value give what they give without a memo (`Reachable.memoised_eq_unmemoised`).

* A registry wraps a value in the union that the recursion over nesting answers with.
* A registry tells the first of its cases that sees an item, where nested registries answer as they
  do in the recursion.
* A case casts a value to the item it sees, with the same answers.
-/

namespace CaseUnion.World

variable {C P : Type} {w : World C P}

/-! ## Each of the three ways -/

section Sound

variable (hw : w.Sound) (μ : Meaning C P) (block : Nat) {id : RegistryId}

/-- A registry wraps a value in its answer without a memo. -/
theorem Sound.wrapValue_eq (hid : id < w.size) (v : Value) :
    ((Host.ofWorld w μ block).wrapValue id v).run
      = w.unmemoised hw.wellFounded μ block v.terminal id := by
  rw [Host.ofWorld_eq_observed, observed_wrapValue hw μ block _ id hid v]
  rfl

/-- A registry tells the first of its cases that sees an item without a memo. -/
theorem Sound.which_eq (id : RegistryId) (u : Union) :
    ((Host.ofWorld w μ block).which id u).run
      = ((w.registry id).cases.find? fun c =>
          (c.recogniser.sees μ (w.unmemoised hw.wellFounded μ block u.terminal)
            u.terminal).isSome).map Case.info := by
  rw [Host.ofWorld_eq_observed, observed_which hw μ block _ id u, ← Registry.map_firstSeen,
    Option.map_map]
  rfl

/-- A case casts a value to the item it sees without a memo. -/
theorem Sound.cast_eq {c : Case C P} (hc : c ∈ (w.registry id).cases) (v : Value) :
    (c.cast (Host.ofWorld w μ block) v).run
      = c.recogniser.sees μ (w.unmemoised hw.wellFounded μ block v.terminal) v.terminal := by
  rw [Host.ofWorld_eq_observed, observed_cast hw μ block _ id hc v]
  rfl

end Sound

/-! ## All three ways in a reachable world -/

/-- Discrimination through a memo gives what discrimination without one gives: wrapping, asking for
the case of a union, and the cast of every case. -/
theorem Reachable.memoised_eq_unmemoised (hw : w.Reachable) (μ : Meaning C P) (block : Nat) :
    (∀ id < w.size, ∀ v : Value,
      ((Host.ofWorld w μ block).wrapValue id v).run
        = w.unmemoised hw.sound.wellFounded μ block v.terminal id) ∧
    (∀ (id : RegistryId) (u : Union),
      ((Host.ofWorld w μ block).which id u).run
        = ((w.registry id).cases.find? fun c =>
            (c.recogniser.sees μ (w.unmemoised hw.sound.wellFounded μ block u.terminal)
              u.terminal).isSome).map Case.info) ∧
    (∀ (id : RegistryId), ∀ c ∈ (w.registry id).cases, ∀ v : Value,
      (c.cast (Host.ofWorld w μ block) v).run
        = c.recogniser.sees μ (w.unmemoised hw.sound.wellFounded μ block v.terminal)
            v.terminal) :=
  ⟨fun _ hid v => hw.sound.wrapValue_eq μ block hid v,
    fun id u => hw.sound.which_eq μ block id u,
    fun _ _ hc v => hw.sound.cast_eq μ block hc v⟩

/-- Predicates that hold of everything or of nothing. -/
def constantMeaning : Meaning Empty Bool := ⟨nofun, fun holds _ => holds⟩

section Diamond

variable (block : Nat) {addr : Address} {n : Int32}

/-- The top of the diamond wraps a number under the right branch, in two layers. -/
theorem diamond_wrapValue_top {v : Value} (hv : v.terminal = .scalar addr (.int32 n)) :
    ((Host.ofWorld diamond constantMeaning block).wrapValue 3 v).run
      = some ⟨⟨"top"⟩, .layer ⟨block, 2⟩ (.layer ⟨block, 1⟩ v.terminal)⟩ := by
  rw [Host.wrapValue, Host.walk, hv, diamond_eq]
  rfl

/-- The right branch wraps it in one layer. -/
theorem diamond_wrapValue_right {v : Value} (hv : v.terminal = .scalar addr (.int32 n)) :
    ((Host.ofWorld diamond constantMeaning block).wrapValue 2 v).run
      = some ⟨⟨"right"⟩, .layer ⟨block, 1⟩ v.terminal⟩ := by
  rw [Host.wrapValue, Host.walk, hv, diamond_eq]
  rfl

/-- At the top a union of a number belongs to the right branch. -/
theorem diamond_which_top {u : Union} (hu : u.terminal = .scalar addr (.int32 n)) :
    ((Host.ofWorld diamond constantMeaning block).which 3 u).run
      = some ⟨"Top", "right", 1, .union⟩ := by
  have hinner : u.inner.terminal = .scalar addr (.int32 n) := hu
  simp only [Host.which, Host.walk, hu, hinner]
  rw [diamond_eq]
  rfl

end Diamond

/-- In the diamond the left branch is refused by its guard.  The right branch asks the registry at
the bottom again and wins. -/
theorem diamond_memoised_eq_unmemoised :
    let v : Value := .scalar ⟨0, 0⟩ (.int32 5)
    diamond.Reachable ∧ 3 < diamond.size ∧
      diamond.unmemoised diamond_reachable.sound.wellFounded constantMeaning 7 v.terminal 3
        = some ⟨⟨"top"⟩, .layer ⟨7, 2⟩ (.layer ⟨7, 1⟩ v)⟩ := by
  intro v
  refine ⟨diamond_reachable, top_lt_size_diamond, ?_⟩
  rw [← (diamond_reachable.memoised_eq_unmemoised constantMeaning 7).1 3 top_lt_size_diamond v]
  exact diamond_wrapValue_top 7 rfl

end CaseUnion.World
