import CaseUnion.Proofs.Locality
import CaseUnion.Proofs.Representation

/-!
# Deep sealing

A seal closes one registry.  What a registry answers depends on every registry below it, so only if
all of these are sealed, too, is it frozen: in every later world it has the same cases, the same
registries below it, and the same answers (`Reachable.deep_seal_freezes`).  Nothing can come in
between, because a registry below a sealed one is nested in a sealed one, and so the edges below it
are those of registries that do not change.
-/

namespace CaseUnion.World

open Relation (ReflTransGen)

variable {C P : Type}

/-- A registry and all registries nested in it at any depth are sealed. -/
def DeepSealed (w : World C P) (id : RegistryId) : Prop :=
  ∀ below, ReflTransGen w.Nests below id → (w.registry below).isSealed = true

section Frozen

variable {w w' : World C P} {id below : RegistryId}

/-- What is below a registry that exists exists. -/
theorem Sound.lt_size_of_path (hw : w.Sound) (hid : id < w.size)
    (hpath : ReflTransGen w.Nests below id) : below < w.size := by
  cases hpath.cases_head with
  | inl heq => exact heq ▸ hid
  | inr hstep =>
      obtain ⟨parent, hnests, -⟩ := hstep
      exact hw.child_lt_size below parent hnests

/-- No operation changes a registry below one that is sealed deeply. -/
theorem DeepSealed.registry_eq (h : w.DeepSealed id) (hw : w.Sound) (hid : id < w.size)
    (hlater : w.Later w') (hpath : ReflTransGen w.Nests below id) :
    w'.registry below = w.registry below :=
  (hlater.extends (hw.lt_size_of_path hid hpath)).frozen (h below hpath)

/-- The same registries are nested in what is below a registry that is sealed deeply. -/
theorem DeepSealed.children_eq (h : w.DeepSealed id) (hw : w.Sound) (hid : id < w.size)
    (hlater : w.Later w') (hpath : ReflTransGen w.Nests below id) :
    w'.children below = w.children below := by
  rw [children, children, h.registry_eq hw hid hlater hpath]

/-- The same registries are below a registry that is sealed deeply.  Of a path in the later world
each registry but the last one is the child of one that is below in the first world, and so has the
same children there. -/
theorem DeepSealed.path_iff (h : w.DeepSealed id) (hw : w.Sound) (hid : id < w.size)
    (hlater : w.Later w') (below : RegistryId) :
    ReflTransGen w'.Nests below id ↔ ReflTransGen w.Nests below id := by
  constructor
  · intro hpath
    induction hpath using ReflTransGen.head_induction_on with
    | refl => exact .refl
    | @head child parent hnests _ ih =>
        have hold : child ∈ w.children parent := h.children_eq hw hid hlater ih ▸ hnests
        exact ih.head hold
  · intro hpath
    induction hpath using ReflTransGen.head_induction_on with
    | refl => exact .refl
    | @head child parent hnests hrest ih =>
        have hnew : child ∈ w'.children parent :=
          (h.children_eq hw hid hlater hrest).symm ▸ hnests
        exact ih.head hnew

end Frozen

/-- A registry that is sealed together with all registries below it is frozen.  Whatever operations
follow, it keeps its cases, the registries below it are the same and keep theirs, and all calls of
the registry and of its handles answer as before. -/
theorem Reachable.deep_seal_freezes {w w' : World C P} (hw : w.Reachable) (μ : Meaning C P)
    {blocks : Set Nat} {b b' : Nat} (hb : b ∈ blocks) (hb' : b' ∈ blocks) {id : RegistryId}
    (hid : id < w.size) (hdeep : w.DeepSealed id) (hlater : w.Later w') :
    w'.registry id = w.registry id ∧
    (∀ below, ReflTransGen w'.Nests below id ↔ ReflTransGen w.Nests below id) ∧
    (∀ below, ReflTransGen w.Nests below id → w'.registry below = w.registry below) ∧
    ∀ v : Value, μ.Blind blocks v.terminal → w.Alike μ b b' w' id v := by
  have hsound := hw.sound
  have hsame : ∀ below, ReflTransGen w.Nests below id → w'.registry below = w.registry below :=
    fun _ hpath => hdeep.registry_eq hsound hid hlater hpath
  refine ⟨hsame id .refl, hdeep.path_iff hsound hid hlater, hsame, fun v hblind => ?_⟩
  refine hsound.alike_of_closed (hw.later hlater).sound hblind hb hb'
    (fun below => ReflTransGen w.Nests below id) ?_ ?_ .refl hid
    (Nat.lt_of_lt_of_le hid hlater.size_le)
  · intro below hpath child hchild
    exact hpath.head hchild
  · intro below hpath _
    rw [hsame below hpath]
    exact .refl _

/-- The right branch of the diamond, sealed with the bottom.  Then a new registry nests the branch,
and the bottom refuses one more case. -/
theorem diamond_deep_seal_freezes :
    let w := (diamond.sealRegistry 0).sealRegistry 2
    let operations : List (Operation Empty Bool) :=
      [.create "Outer" .matching ⟨"outer"⟩, .register 4 "right" (.nested 2 none),
        .register 0 "bool" (.ofType (.datum .bool) none)]
    let w' := operations.foldl Operation.apply w
    let v : Value := .scalar ⟨0, 0⟩ (.int32 5)
    w.Reachable ∧ 2 < w.size ∧ w.DeepSealed 2 ∧ w.Later w' ∧ w'.children 4 = [2] ∧
      w'.registry 2 = w.registry 2 ∧
      (∀ below, ReflTransGen w'.Nests below 2 ↔ ReflTransGen w.Nests below 2) ∧
      w.Alike constantMeaning 7 8 w' 2 v := by
  intro w operations w' v
  have hw : w.Reachable :=
    .step (.step diamond_reachable (.sealRegistry 0) trivial) (.sealRegistry 2) trivial
  have hid : 2 < w.size := by
    simp only [w, sealRegistry, size_update]
    exact Nat.lt_of_succ_lt top_lt_size_diamond
  have hdeep : w.DeepSealed 2 := by
    intro below hpath
    rw [nests_sealRegistry, nests_sealRegistry] at hpath
    unfold w
    rw [diamond_eq]
    rcases eq_of_path_right hpath with rfl | rfl <;> rfl
  have hlater : w.Later w' := by
    refine .step (.step (.step .refl (.create ..) trivial) (.register ..) ?_) (.register ..) ?_
    all_goals
      intro child hchild
      cases hchild
    unfold w
    rw [diamond_eq]
    exact ⟨by cbv, by cbv⟩
  have houter : w'.children 4 = [2] := by
    unfold w' w
    rw [diamond_eq]
    cbv
  obtain ⟨hsame, hpaths, -, halike⟩ :=
    hw.deep_seal_freezes constantMeaning (Set.mem_univ 7) (Set.mem_univ 8) hid hdeep hlater
  exact ⟨hw, hid, hdeep, hlater, houter, hsame, hpaths, halike v (constantMeaning_blind _ _)⟩

end CaseUnion.World
