import CaseUnion.Proofs.Membership

/-!
# Discrimination in two worlds

What a registry answers depends on its own cases and on the answers of the registries nested in it,
and on nothing else of the world.  So two worlds answer alike wherever they agree on a set of
registries that is closed under nesting (`World.Sound.alike_of_closed`).  They need not agree
fully.  A registry may have more cases in the second world, as long as those come last and do not
decide about the value, because an earlier case recognises it or because none of them does
(`Registry.Undisturbed`).

The calls in the two worlds have blocks of their own.  To answer alike is therefore to tell the same
case, and to give unions of the same tag with as many layers around the same terminal value
(`World.Alike`).  Where both calls have one block that is equality.
-/

namespace CaseUnion

variable {C P : Type} {μ : Meaning C P} {blocks : Set Nat} {terminal : Value} {b b' : Nat}
  {answers answers' : RegistryId → Option Union}

/-! ## Items in two blocks -/

/-- Two items are one item, or unions of one outline with their layers in two blocks. -/
inductive Item.Alike (b b' : Nat) (terminal : Value) : Item → Item → Prop
  | same (item : Item) : Alike b b' terminal item item
  | outlined (outline : Outline) :
      Alike b b' terminal (.union (outline.union b terminal)) (.union (outline.union b' terminal))

/-- What a recogniser sees is alike if the registry that it nests answers alike. -/
theorem Recogniser.alike_sees (hblind : μ.Blind blocks terminal) (hb : b ∈ blocks)
    (hb' : b' ∈ blocks) (recogniser : Recogniser C P)
    (hanswers : ∀ child, recogniser.child? = some child →
      Outlined b b' terminal (answers child) (answers' child)) :
    Option.Rel (Item.Alike b b' terminal) (recogniser.sees μ answers terminal)
      (recogniser.sees μ answers' terminal) := by
  have hrefl : ∀ item : Option Item, Option.Rel (Item.Alike b b' terminal) item item := by
    intro item
    cases item with
    | none => exact .none
    | some item => exact .some (.same item)
  cases recogniser with
  | literal expected => exact hrefl _
  | ofType type guard => exact hrefl _
  | byCast cast guard => exact hrefl _
  | nested child guard =>
      obtain ⟨outline, houtline, houtline'⟩ := hanswers child rfl
      simp only [sees, houtline, houtline']
      cases outline with
      | none => exact .none
      | some outline =>
          have hguard := hblind.guards_eq hb hb' guard outline
          simp only [Option.map_some, Option.filter_some, hguard]
          split
          · exact .some (.outlined outline)
          · exact .none

theorem isSome_eq_of_rel {α : Type} {r : α → α → Prop} {x y : Option α} (h : Option.Rel r x y) :
    x.isSome = y.isSome := by
  cases h <;> rfl

/-! ## A registry with more cases -/

/-- No case is the first to see an item if none sees one. -/
theorem findSome?_sees_eq_none {cs : List (Case C P)}
    (h : ∀ c ∈ cs, c.recogniser.sees μ answers terminal = none) :
    (cs.findSome? fun c =>
      (c.recogniser.sees μ answers terminal).map fun item => (c, item)) = none :=
  List.findSome?_eq_none_iff.mpr fun c hc => by rw [h c hc]; rfl

namespace Registry

/-- A registry has become another one by cases at its end that do not decide about a terminal
value. -/
structure Undisturbed (μ : Meaning C P) (answers : RegistryId → Option Union) (terminal : Value)
    (r r' : Registry C P) : Prop where
  tag : r'.tag = r.tag
  cases : ∃ extra, r'.cases = r.cases ++ extra ∧
    ((∃ c ∈ r.cases, (c.recogniser.sees μ answers terminal).isSome = true) ∨
      ∀ c ∈ extra, c.recogniser.sees μ answers terminal = none)

theorem Undisturbed.refl (r : Registry C P) : r.Undisturbed μ answers terminal r :=
  ⟨rfl, [], (List.append_nil _).symm, .inr nofun⟩

variable {r r' : Registry C P}

/-- The first case that recognises the value stays the first, with the item it sees. -/
theorem Undisturbed.firstSeen_eq (h : r.Undisturbed μ answers terminal r') :
    r'.firstSeen μ answers terminal = r.firstSeen μ answers terminal := by
  obtain ⟨-, extra, hcases, hdecided⟩ := h
  rw [firstSeen, firstSeen, hcases, List.findSome?_append]
  rcases hdecided with ⟨c, hc, hsees⟩ | hextra
  · obtain ⟨item, hitem⟩ := Option.isSome_iff_exists.mp hsees
    have hfirst : (r.cases.findSome? fun c =>
        (c.recogniser.sees μ answers terminal).map fun item => (c, item)).isSome := by
      rw [List.findSome?_isSome_iff]
      exact ⟨c, hc, by rw [hitem]; rfl⟩
    exact Option.or_of_isSome hfirst
  · rw [findSome?_sees_eq_none hextra, Option.or_none]

theorem Undisturbed.answer_eq (h : r.Undisturbed μ answers terminal r') (block : Nat) :
    r'.answer μ answers block terminal = r.answer μ answers block terminal := by
  rw [Registry.answer_eq, Registry.answer_eq, h.firstSeen_eq, h.tag]

/-- The first case that recognises the value stays the first where nested registries answer
alike. -/
theorem Undisturbed.find?_eq (h : r.Undisturbed μ answers' terminal r')
    (hblind : μ.Blind blocks terminal) (hb : b ∈ blocks) (hb' : b' ∈ blocks)
    (hanswers : ∀ child ∈ r.children, Outlined b b' terminal (answers child) (answers' child)) :
    (r'.cases.find? fun c => (c.recogniser.sees μ answers' terminal).isSome)
      = r.cases.find? fun c => (c.recogniser.sees μ answers terminal).isSome := by
  rw [← map_firstSeen, h.firstSeen_eq, map_firstSeen]
  refine List.find?_congr fun c hc => ?_
  have hsees := c.recogniser.alike_sees hblind hb hb' fun child hchild =>
    hanswers child (mem_children hc hchild)
  exact (isSome_eq_of_rel hsees).symm

end Registry

/-! ## The answers of two worlds -/

namespace World

/-- A registry and the handles it has in the first of two worlds answer alike to a value in both
worlds, where calls have one block in the first and one in the second. -/
structure Alike (μ : Meaning C P) (b b' : Nat) (w w' : World C P) (id : RegistryId) (v : Value) :
    Prop where
  /-- A union around the terminal value of the value belongs to the same case. -/
  which : ∀ u : Union, u.terminal = v.terminal →
    ((Host.ofWorld w' μ b').which id u).run = ((Host.ofWorld w μ b).which id u).run
  wrapValue : Outlined b b' v.terminal ((Host.ofWorld w μ b).wrapValue id v).run
    ((Host.ofWorld w' μ b').wrapValue id v).run
  canWrapValue : ((Host.ofWorld w' μ b').canWrapValue id v).run
    = ((Host.ofWorld w μ b).canWrapValue id v).run
  cast : ∀ c ∈ (w.registry id).cases, Option.Rel (Item.Alike b b' v.terminal)
    (c.cast (Host.ofWorld w μ b) v).run (c.cast (Host.ofWorld w' μ b') v).run
  accepts : ∀ c ∈ (w.registry id).cases, ∀ u : Union, u.terminal = v.terminal →
    (c.accepts (Host.ofWorld w' μ b') u).run = (c.accepts (Host.ofWorld w μ b) u).run

variable {w w' : World C P}

/-- A registry answers alike if it is undisturbed and the registries nested in it answer alike. -/
theorem outlined_unmemoised_of_children (h : WellFounded w.Nests) (h' : WellFounded w'.Nests)
    (hblind : μ.Blind blocks terminal) (hb : b ∈ blocks) (hb' : b' ∈ blocks) {id : RegistryId}
    (hundisturbed : (w.registry id).Undisturbed μ (w'.unmemoised h' μ b' terminal) terminal
      (w'.registry id))
    (hchildren : ∀ child ∈ w.children id,
      Outlined b b' terminal (w.unmemoised h μ b terminal child)
        (w'.unmemoised h' μ b' terminal child)) :
    Outlined b b' terminal (w.unmemoised h μ b terminal id)
      (w'.unmemoised h' μ b' terminal id) := by
  rw [unmemoised_eq, unmemoised_eq, hundisturbed.answer_eq]
  exact Registry.outlined_answer hblind hb hb' hchildren

/-- The same for the calls of a registry and its handles. -/
theorem Sound.alike_of_children (hw : w.Sound) (hw' : w'.Sound) {v : Value}
    (hblind : μ.Blind blocks v.terminal) (hb : b ∈ blocks) (hb' : b' ∈ blocks) {id : RegistryId}
    (hid : id < w.size) (hid' : id < w'.size)
    (hundisturbed : (w.registry id).Undisturbed μ
      (w'.unmemoised hw'.wellFounded μ b' v.terminal) v.terminal (w'.registry id))
    (hchildren : ∀ child ∈ w.children id,
      Outlined b b' v.terminal (w.unmemoised hw.wellFounded μ b v.terminal child)
        (w'.unmemoised hw'.wellFounded μ b' v.terminal child)) :
    w.Alike μ b b' w' id v := by
  have hanswer := outlined_unmemoised_of_children hw.wellFounded hw'.wellFounded hblind hb hb'
    hundisturbed hchildren
  rw [← hw.wrapValue_eq μ b hid, ← hw'.wrapValue_eq μ b' hid'] at hanswer
  have hcast : ∀ c ∈ (w.registry id).cases, Option.Rel (Item.Alike b b' v.terminal)
      (c.cast (Host.ofWorld w μ b) v).run (c.cast (Host.ofWorld w' μ b') v).run := by
    intro c hc
    obtain ⟨extra, hcases, -⟩ := hundisturbed.cases
    have hc' : c ∈ (w'.registry id).cases := hcases ▸ List.mem_append_left extra hc
    rw [hw.cast_eq μ b hc, hw'.cast_eq μ b' hc']
    exact c.recogniser.alike_sees hblind hb hb' fun child hchild =>
      hchildren child (Registry.mem_children hc hchild)
  refine ⟨fun u hu => ?_, hanswer, ?_, hcast, fun c hc u hu => ?_⟩
  · rw [hw.which_eq, hw'.which_eq, hu, hundisturbed.find?_eq hblind hb hb' hchildren]
  · obtain ⟨outline, hbefore, hafter⟩ := hanswer
    have hcan : ∀ host : Host C P Id,
        (host.canWrapValue id v).run = (host.wrapValue id v).run.isSome := fun _ => rfl
    rw [hcan, hcan, hbefore, hafter, Option.isSome_map, Option.isSome_map]
  · rw [accepts_eq_isSome_cast _ c hu, accepts_eq_isSome_cast _ c hu]
    exact (isSome_eq_of_rel (hcast c hc)).symm

/-- On a set of registries that is closed under nesting, all answers are alike if each registry is
undisturbed once the registries nested in it answer alike. -/
theorem Sound.outlined_of_closed (hw : w.Sound) (hw' : w'.Sound)
    (hblind : μ.Blind blocks terminal) (hb : b ∈ blocks) (hb' : b' ∈ blocks)
    (closed : RegistryId → Prop)
    (hclosed : ∀ id, closed id → ∀ child ∈ w.children id, closed child)
    (hstep : ∀ id, closed id →
      (∀ child ∈ w.children id,
        Outlined b b' terminal (w.unmemoised hw.wellFounded μ b terminal child)
          (w'.unmemoised hw'.wellFounded μ b' terminal child)) →
      (w.registry id).Undisturbed μ (w'.unmemoised hw'.wellFounded μ b' terminal) terminal
        (w'.registry id))
    (id : RegistryId) (hid : closed id) :
    Outlined b b' terminal (w.unmemoised hw.wellFounded μ b terminal id)
      (w'.unmemoised hw'.wellFounded μ b' terminal id) := by
  induction id using hw.wellFounded.induction with
  | _ id ih =>
      have hchildren := fun child hchild => ih child hchild (hclosed id hid child hchild)
      exact outlined_unmemoised_of_children hw.wellFounded hw'.wellFounded hblind hb hb'
        (hstep id hid hchildren) hchildren

/-- The same for the calls of the registries of such a set, and of their handles. -/
theorem Sound.alike_of_closed (hw : w.Sound) (hw' : w'.Sound) {v : Value}
    (hblind : μ.Blind blocks v.terminal) (hb : b ∈ blocks) (hb' : b' ∈ blocks)
    (closed : RegistryId → Prop)
    (hclosed : ∀ id, closed id → ∀ child ∈ w.children id, closed child)
    (hstep : ∀ id, closed id →
      (∀ child ∈ w.children id,
        Outlined b b' v.terminal (w.unmemoised hw.wellFounded μ b v.terminal child)
          (w'.unmemoised hw'.wellFounded μ b' v.terminal child)) →
      (w.registry id).Undisturbed μ (w'.unmemoised hw'.wellFounded μ b' v.terminal) v.terminal
        (w'.registry id))
    {id : RegistryId} (hid : closed id) (hlt : id < w.size) (hlt' : id < w'.size) :
    w.Alike μ b b' w' id v := by
  have hchildren := fun child hchild =>
    hw.outlined_of_closed hw' hblind hb hb' closed hclosed hstep child (hclosed id hid child hchild)
  exact hw.alike_of_children hw' hblind hb hb' hlt hlt' (hstep id hid hchildren) hchildren

end World

end CaseUnion
