import CaseUnion.Proofs.Equality
import CaseUnion.Proofs.Locality
import CaseUnion.Proofs.Representation

/-!
# From a union back to the union

A registry wraps a value under its first case that recognises it.  The handle of that case takes the
union apart and puts it together again, and the two unions are equal
(`Reachable.winner_round_trips`).

A case without a nested registry keeps the terminal value itself, so what its handle makes is
compared with a value that is stored again.  A nested case keeps the layer of the union that the
nested registry answered with.  Its handle never reads that layer.  It asks the nested registry
again, in a walk of its own, and what comes back has as many layers around the same terminal value
as the one that is kept.
-/

namespace CaseUnion

variable {C P : Type}

/-! ## What handles make in a world at rest -/

namespace Case

variable {w : World C P} {μ : Meaning C P} {block : Nat} {c : Case C P}

theorem run_accepts (guard : Option P) (item : Item) :
    ((Host.ofWorld w μ block).accepts guard item).run = μ.guards guard item := by
  cases guard <;> rfl

/-- A literal case wraps its literal, stored in a new block. -/
theorem run_wrap_literal {expected : Item} (hc : c.recogniser = .literal expected) (given : Item) :
    (c.wrap (Host.ofWorld w μ block) given).run
      = some ⟨c.tag, Value.ofItem w.wrappers block expected⟩ := by
  simp only [wrap, hc]
  rfl

/-- A case of a type wraps the items of the type that pass its guard, stored in a new block. -/
theorem run_wrap_ofType_iff {type : ItemType} {guard : Option P}
    (hc : c.recogniser = .ofType type guard) {item : Item} {u : Union} :
    (c.wrap (Host.ofWorld w μ block) item).run = some u
      ↔ item.type = type ∧ μ.guards guard item = true ∧
          u = ⟨c.tag, Value.ofItem w.wrappers block item⟩ := by
  have haccepts : (Host.ofWorld w μ block).accepts guard item = μ.guards guard item :=
    run_accepts guard item
  have hrun : (c.wrap (Host.ofWorld w μ block) item).run
      = if item.type = type then
          if μ.guards guard item = true then some ⟨c.tag, Value.ofItem w.wrappers block item⟩
          else none
        else none := by
    rw [← haccepts]
    simp only [wrap, hc]
    split <;> rfl
  rw [hrun, Option.ite_none_right_eq_some, Option.ite_none_right_eq_some, Option.some.injEq,
    eq_comm (a := u)]

/-- A case by a custom cast wraps the terminal values of the values that it casts. -/
theorem run_wrapValue_byCast_iff {cast : C} {guard : Option P}
    (hc : c.recogniser = .byCast cast guard) {v : Value} {u : Union} :
    (c.wrapValue (Host.ofWorld w μ block) v).run = some u
      ↔ (c.cast (Host.ofWorld w μ block) v.terminal).run.isSome = true ∧
          u = ⟨c.tag, v.terminal⟩ := by
  have hrun : (c.wrapValue (Host.ofWorld w μ block) v).run
      = if (c.cast (Host.ofWorld w μ block) v.terminal).run.isSome = true then
          some ⟨c.tag, v.terminal⟩ else none := by
    simp only [wrapValue, hc]
    rfl
  rw [hrun, Option.ite_none_right_eq_some, Option.some.injEq, eq_comm (a := u)]

/-- A nested case puts the layer of a union behind one more layer, if the union passes its guard. -/
theorem run_wrap_nested_iff {child : RegistryId} {guard : Option P}
    (hc : c.recogniser = .nested child guard) {inner u : Union} :
    (c.wrap (Host.ofWorld w μ block) (.union inner)).run = some u
      ↔ μ.guards guard (.union inner) = true ∧ u = ⟨c.tag, inner.toValue block⟩ := by
  have haccepts : (Host.ofWorld w μ block).accepts guard (.union inner)
      = μ.guards guard (.union inner) := run_accepts guard (.union inner)
  have hrun : (c.wrap (Host.ofWorld w μ block) (.union inner)).run
      = if μ.guards guard (.union inner) = true then some ⟨c.tag, inner.toValue block⟩
        else none := by
    rw [← haccepts]
    simp only [wrap, hc]
    rfl
  rw [hrun, Option.ite_none_right_eq_some, Option.some.injEq, eq_comm (a := u)]

/-- To put a union back under a nested case is to wrap it. -/
theorem rewrap_nested {m : Type → Type} [Monad m] (host : Host C P m) {child : RegistryId}
    {guard : Option P} (hc : c.recogniser = .nested child guard) (inner : Union) :
    c.rewrap host inner = c.wrap host (.union inner) := by
  simp only [rewrap, hc]

end Case

/-! ## What a recogniser sees -/

section Sees

variable {μ : Meaning C P} {answers : RegistryId → Option Union} {terminal : Value} {item : Item}

theorem Value.downcast_eq_some_iff {type : ItemType} {v : Value} :
    v.downcast type = some item ↔ v.type = type ∧ item = v.content := by
  unfold downcast
  split
  next h => simp [h, eq_comm]
  next h => simp [h]

theorem Recogniser.of_literal_sees {expected : Item}
    (h : (literal expected : Recogniser C P).sees μ answers terminal = some item) :
    item = terminal.content ∧ item.same expected = true := by
  obtain ⟨hcast, hsame⟩ := Option.filter_eq_some_iff.mp h
  exact ⟨(Value.downcast_eq_some_iff.mp hcast).2, hsame⟩

theorem Recogniser.of_ofType_sees {type : ItemType} {guard : Option P}
    (h : (ofType type guard : Recogniser C P).sees μ answers terminal = some item) :
    terminal.type = type ∧ item = terminal.content ∧ μ.guards guard item = true := by
  obtain ⟨hcast, hguard⟩ := Option.filter_eq_some_iff.mp h
  obtain ⟨htype, hitem⟩ := Value.downcast_eq_some_iff.mp hcast
  exact ⟨htype, hitem, hguard⟩

theorem Recogniser.of_nested_sees {child : RegistryId} {guard : Option P}
    (h : (nested child guard : Recogniser C P).sees μ answers terminal = some item) :
    ∃ u, answers child = some u ∧ item = .union u ∧ μ.guards guard (.union u) = true := by
  obtain ⟨hasked, hguard⟩ := Option.filter_eq_some_iff.mp h
  obtain ⟨u, hu, rfl⟩ := Option.map_eq_some_iff.mp hasked
  exact ⟨u, hu, rfl, hguard⟩

end Sees

/-- Layers around values that are the same are the same, in all blocks. -/
theorem Value.same_layered_of_same {v v' : Value} (h : v.same v' = true)
    (block block' layers : Nat) :
    (v.layered block layers).same (v'.layered block' layers) = true := by
  induction layers with
  | zero => exact h
  | succ layers ih => exact same_boxed ih block block'

theorem Value.same_layered (v : Value) (block block' layers : Nat) :
    (v.layered block layers).same (v.layered block' layers) = true :=
  same_layered_of_same v.same_refl block block' layers

/-! ## The case that a union was wrapped under -/

namespace World

variable {w : World C P} {μ : Meaning C P} {blocks : Set Nat} {block : Nat} {id : RegistryId}
  {v : Value} {u : Union} {c : Case C P} {item : Item}

/-- Every case keeps the tag of its registry. -/
theorem Reachable.tag_eq (hw : w.Reachable) (hc : c ∈ (w.registry id).cases) :
    c.tag = (w.registry id).tag := by
  have htags : ∀ d ∈ (w.registry id).cases, d.tag = (w.registry id).tag := by
    refine hw.forall_registry (p := fun r => ∀ d ∈ r.cases, d.tag = r.tag) ?_ ?_ ?_ id
    · intro r hcases _ d hd
      rw [hcases] at hd
      cases hd
    · exact fun _ hr => hr
    · intro r name recogniser hr _ d hd
      rcases List.mem_append.mp hd with hold | hnew
      · exact hr d hold
      · rw [List.mem_singleton.mp hnew]
        rfl
  exact htags c hc

/-- A registry wraps a value under a case that sees an item: the case is the first to see one, and
the union keeps what the case stores. -/
structure WrapsUnder (w : World C P) (hw : w.Sound) (μ : Meaning C P) (block : Nat)
    (id : RegistryId) (v : Value) (u : Union) (c : Case C P) (item : Item) : Prop where
  first : (w.registry id).firstSeen μ (w.unmemoised hw.wellFounded μ block v.terminal) v.terminal
    = some (c, item)
  union : u = ⟨(w.registry id).tag, c.recogniser.stored block v.terminal item⟩

theorem Sound.exists_wrapsUnder_of_unmemoised (hw : w.Sound)
    (h : w.unmemoised hw.wellFounded μ block v.terminal id = some u) :
    ∃ c item, w.WrapsUnder hw μ block id v u c item := by
  rw [unmemoised_eq, Registry.answer_eq] at h
  obtain ⟨⟨c, item⟩, hfirst, hunion⟩ := Option.map_eq_some_iff.mp h
  exact ⟨c, item, hfirst, hunion.symm⟩

theorem Sound.exists_wrapsUnder (hw : w.Sound) (hid : id < w.size)
    (hwrap : ((Host.ofWorld w μ block).wrapValue id v).run = some u) :
    ∃ c item, w.WrapsUnder hw μ block id v u c item := by
  rw [hw.wrapValue_eq μ block hid] at hwrap
  exact hw.exists_wrapsUnder_of_unmemoised hwrap

namespace WrapsUnder

variable {hw : w.Sound} (h : w.WrapsUnder hw μ block id v u c item)

include h

theorem mem : c ∈ (w.registry id).cases := (Registry.of_firstSeen_eq_some h.first).1

theorem sees : c.recogniser.sees μ (w.unmemoised hw.wellFounded μ block v.terminal) v.terminal
    = some item := (Registry.of_firstSeen_eq_some h.first).2

/-- A case without a nested registry keeps the terminal value. -/
theorem inner_eq_terminal (hplain : c.recogniser.child? = none) : u.inner = v.terminal := by
  rw [h.union]
  cases hc : c.recogniser with
  | nested child guard => simp [hc, Recogniser.child?] at hplain
  | _ => cases item <;> rfl

/-- Whoever asks for the case of the union is told the case it was wrapped under. -/
theorem which_eq (hterminal : u.terminal = v.terminal) (hblind : μ.Blind blocks v.terminal)
    (hblock : block ∈ blocks) {asking : Nat} (hasking : asking ∈ blocks) :
    ((Host.ofWorld w μ asking).which id u).run = some c.info := by
  have hfind : ((w.registry id).cases.find? fun d =>
      (d.recogniser.sees μ (w.unmemoised hw.wellFounded μ asking v.terminal) v.terminal).isSome)
      = some c := by
    have hfirst := congrArg (Option.map Prod.fst) h.first
    rw [Registry.map_firstSeen] at hfirst
    rw [← Option.map_some (f := Prod.fst) (a := (c, item)), ← hfirst]
    exact List.find?_congr fun d _ =>
      isSome_sees_eq hw.wellFounded hblind hasking hblock d.recogniser
  rw [hw.which_eq, hterminal, hfind]
  rfl

/-- Its handle sees an item in the union. -/
theorem exists_unwrap (hterminal : u.terminal = v.terminal) (hblind : μ.Blind blocks v.terminal)
    (hblock : block ∈ blocks) {unwrapping : Nat} (hunwrapping : unwrapping ∈ blocks) :
    ∃ item', (c.unwrap (Host.ofWorld w μ unwrapping) u).run = some item' ∧
      c.recogniser.sees μ (w.unmemoised hw.wellFounded μ unwrapping v.terminal) v.terminal
        = some item' := by
  have hsome := isSome_sees_eq hw.wellFounded hblind hunwrapping hblock c.recogniser
  rw [h.sees] at hsome
  obtain ⟨item', hitem'⟩ := Option.isSome_iff_exists.mp hsome
  have hpeeled : u.terminal.terminal = v.terminal := by
    rw [hterminal, Value.terminal_terminal]
  refine ⟨item', ?_, hitem'⟩
  rw [Case.unwrap, hw.cast_eq μ unwrapping h.mem, hpeeled, hitem']

end WrapsUnder

end World

/-! ## From the union back to the union -/

/-- A call gives a union that is equal to another one. -/
def Rebuilds (result : Id (Option Union)) (u : Union) : Prop :=
  ∃ u', result.run = some u' ∧ u'.tag = u.tag ∧ u'.same u = true

/-- A case gives back a union that a value was wrapped in, from the item that it sees in the union.
The union was made in one block, the item in a second one, and what the case gives in a third.

The item of a case of a type has to be equal to itself, so that it can be compared at all.  That of
a nested case is what the nested registry itself wraps the value in, and its layer is the one that
the union keeps, up to the blocks. -/
def Case.Restores (w : World C P) (μ : Meaning C P) (wrapping unwrapping rebuilding : Nat)
    (c : Case C P) (v : Value) (u : Union) (item : Item) : Prop :=
  let host := Host.ofWorld w μ rebuilding
  match c.recogniser with
  | .literal _ => ∀ given, Rebuilds (c.wrap host given) u
  | .ofType .. =>
      item = v.terminal.content ∧ (item.same item = true → Rebuilds (c.wrap host item) u)
  | .byCast .. => (c.wrapValue host v).run = some u
  | .nested child _ =>
      ∃ inner, item = .union inner ∧
        ((Host.ofWorld w μ unwrapping).wrapValue child v).run = some inner ∧
        (∃ outline : Outline, inner = outline.union unwrapping v.terminal ∧
          u.inner = (outline.union wrapping v.terminal).toValue wrapping) ∧
        (Item.layer inner.inner).same u.inner.content = true ∧
        Rebuilds (c.rewrap host inner) u

namespace World.WrapsUnder

variable {w : World C P} {hw : w.Sound} {μ : Meaning C P} {blocks : Set Nat} {wrapping : Nat}
  {id : RegistryId} {v : Value} {u : Union} {c : Case C P} {item item' : Item}
  (h : w.WrapsUnder hw μ wrapping id v u c item) (htag : c.tag = (w.registry id).tag)

include h htag

theorem tag_eq : c.tag = u.tag := by
  rw [htag, h.union]

/-- A case that stores an item equal to the terminal value again makes an equal union. -/
theorem rebuilds_of_same (hplain : c.recogniser.child? = none) (hv : w.Stores v) {stored : Item}
    (hsame : v.terminal.content.same stored = true) (block : Nat) {result : Id (Option Union)}
    (hresult : result.run = some ⟨c.tag, Value.ofItem w.wrappers block stored⟩) :
    Rebuilds result u := by
  refine ⟨_, hresult, h.tag_eq htag, ?_⟩
  rw [Union.same, Value.same_comm, h.inner_eq_terminal hplain]
  exact Value.same_ofItem hv hsame block

/-- A nested case sees what its registry answers, and the layer of that is the one it has kept.  The
nested registry has answered twice, in two blocks and with one outline. -/
theorem restores_nested {child : RegistryId} {guard : Option P}
    (hc : c.recogniser = .nested child guard) (hblind : μ.Blind blocks v.terminal)
    (hwrapping : wrapping ∈ blocks) {unwrapping : Nat} (hunwrapping : unwrapping ∈ blocks)
    (rebuilding : Nat)
    (hsees : c.recogniser.sees μ (w.unmemoised hw.wellFounded μ unwrapping v.terminal) v.terminal
      = some item') : c.Restores w μ wrapping unwrapping rebuilding v u item' := by
  have hkept := h.sees
  rw [hc] at hkept hsees
  obtain ⟨kept, hanswer, rfl, -⟩ := Recogniser.of_nested_sees hkept
  obtain ⟨inner, hanswer', rfl, hguard⟩ := Recogniser.of_nested_sees hsees
  obtain ⟨outline, rfl, houtline⟩ :=
    exists_outline_in hw.wellFounded hblind hwrapping hunwrapping hanswer
  cases houtline.symm.trans hanswer'
  have hinner : u.inner = (outline.union wrapping v.terminal).toValue wrapping := by
    rw [h.union, hc]
    rfl
  have hlayers : (outline.union unwrapping v.terminal).inner.same
      (outline.union wrapping v.terminal).inner = true :=
    v.terminal.same_layered unwrapping wrapping outline.layers
  have hchild : child < w.size :=
    hw.child_lt_size child id (Registry.mem_children h.mem (by rw [hc]; rfl))
  rw [Case.Restores]
  simp only [hc]
  have hrewrap : (c.rewrap (Host.ofWorld w μ rebuilding) (outline.union unwrapping v.terminal)).run
      = some ⟨c.tag, (outline.union unwrapping v.terminal).toValue rebuilding⟩ := by
    rw [Case.rewrap_nested _ hc]
    exact (Case.run_wrap_nested_iff hc).mpr ⟨hguard, rfl⟩
  refine ⟨_, rfl, (hw.wrapValue_eq μ unwrapping hchild v).trans hanswer', ⟨outline, rfl, hinner⟩,
    ?_, _, hrewrap, h.tag_eq htag, ?_⟩
  · rw [hinner]
    exact hlayers
  · rw [Union.same, hinner]
    exact Value.same_boxed hlayers rebuilding wrapping

/-- The case that a union was wrapped under gives it back, whatever its recogniser is.  A custom
cast asks no registry, so it sees the same in every block. -/
theorem restores (hv : w.Stores v) (hblind : μ.Blind blocks v.terminal)
    (hwrapping : wrapping ∈ blocks) {unwrapping : Nat} (hunwrapping : unwrapping ∈ blocks)
    (rebuilding : Nat)
    (hsees : c.recogniser.sees μ (w.unmemoised hw.wellFounded μ unwrapping v.terminal) v.terminal
      = some item') : c.Restores w μ wrapping unwrapping rebuilding v u item' := by
  cases hc : c.recogniser with
  | literal expected =>
      rw [hc] at hsees
      obtain ⟨rfl, hsame⟩ := Recogniser.of_literal_sees hsees
      simp only [Case.Restores, hc]
      intro given
      exact h.rebuilds_of_same htag (by rw [hc]; rfl) hv hsame rebuilding
        (Case.run_wrap_literal hc given)
  | ofType type guard =>
      rw [hc] at hsees
      obtain ⟨htype, rfl, hguard⟩ := Recogniser.of_ofType_sees hsees
      simp only [Case.Restores, hc]
      refine ⟨trivial, fun hself => ?_⟩
      exact h.rebuilds_of_same htag (by rw [hc]; rfl) hv hself rebuilding
        ((Case.run_wrap_ofType_iff hc).mpr ⟨htype, hguard, rfl⟩)
  | byCast cast guard =>
      have hcast := hw.cast_eq μ rebuilding h.mem v.terminal
      rw [Value.terminal_terminal, hc] at hcast
      rw [hc] at hsees
      have hsome : (c.cast (Host.ofWorld w μ rebuilding) v.terminal).run.isSome = true := by
        rw [hcast, ← Recogniser.sees_congr (fun _ hchild => by cases hchild), hsees]
        rfl
      simp only [Case.Restores, hc]
      rw [(Case.run_wrapValue_byCast_iff hc).mpr ⟨hsome, rfl⟩, h.tag_eq htag,
        ← h.inner_eq_terminal (by rw [hc]; rfl)]
  | nested child guard =>
      exact h.restores_nested htag hc hblind hwrapping hunwrapping rebuilding hsees

end World.WrapsUnder

namespace World

/-- A union that a registry wraps a value in belongs to a case of the registry, and the handle of
that case gives the union back from the item that it sees in it.  The terminal value of the union is
that of the value. -/
theorem Reachable.winner_round_trips {w : World C P} (hw : w.Reachable) (μ : Meaning C P)
    {blocks : Set Nat} {wrapping asking unwrapping : Nat} (hwrapping : wrapping ∈ blocks)
    (hasking : asking ∈ blocks) (hunwrapping : unwrapping ∈ blocks) (rebuilding : Nat)
    {id : RegistryId} (hid : id < w.size) {v : Value} (hv : w.Stores v)
    (hblind : μ.Blind blocks v.terminal) {u : Union}
    (hwrap : ((Host.ofWorld w μ wrapping).wrapValue id v).run = some u) :
    u.terminal = v.terminal ∧
    (∃ c ∈ (w.registry id).cases,
      ((Host.ofWorld w μ asking).which id u).run = some c.info) ∧
    ∀ c ∈ (w.registry id).cases,
      ((Host.ofWorld w μ asking).which id u).run = some c.info →
      ∃ item, (c.unwrap (Host.ofWorld w μ unwrapping) u).run = some item ∧
        c.Restores w μ wrapping unwrapping rebuilding v u item := by
  have hsound := hw.sound
  have hterminal := (hsound.exists_first_of_wrapValue hblind hwrapping
    (fun _ => hwrapping) hid hwrap).1
  obtain ⟨c, item, h⟩ := hsound.exists_wrapsUnder hid hwrap
  have hwhich := h.which_eq hterminal hblind hwrapping hasking
  refine ⟨hterminal, ⟨c, h.mem, hwhich⟩, fun d hd htold => ?_⟩
  have hordinal : c.ordinal = d.ordinal :=
    congrArg CaseInfo.ordinal (Option.some.inj (hwhich.symm.trans htold))
  obtain rfl : c = d :=
    List.inj_on_of_nodup_map (hsound.ordered id).nodup_ordinals h.mem hd hordinal
  obtain ⟨item', hunwrap, hsees⟩ := h.exists_unwrap hterminal hblind hwrapping hunwrapping
  exact ⟨item', hunwrap, h.restores (hw.tag_eq h.mem) hv hblind hwrapping hunwrapping
    rebuilding hsees⟩

/-- The diamond wraps a number under its right branch, through two layers.  The handle of the right
branch sees the union of the branch in it, and puts that back. -/
theorem diamond_winner_round_trips :
    let v := Value.ofItem diamond.wrappers 0 (.ofScalar (.int32 5))
    let host := Host.ofWorld diamond constantMeaning
    let u : Union := ⟨⟨"top"⟩, .layer ⟨7, 2⟩ (.layer ⟨7, 1⟩ v)⟩
    let c : Case Empty Bool := ⟨"Top", "right", 1, ⟨"top"⟩, .nested 2 none⟩
    diamond.Stores v ∧ ((host 7).wrapValue 3 v).run = some u ∧ u.terminal = v ∧
      ((host 8).which 3 u).run = some c.info ∧
      ∃ item, (c.unwrap (host 9) u).run = some item ∧
        c.Restores diamond constantMeaning 7 9 10 v u item := by
  intro v host u c
  have hinside : diamond.StoresInside (.ofScalar (.int32 5)) := trivial
  have hv : diamond.Stores v := diamond.stores_ofItem hinside 0
  have hwrap : ((host 7).wrapValue 3 v).run = some u := diamond_wrapValue_top 7 rfl
  have hwhich : ((host 8).which 3 u).run = some c.info := diamond_which_top 8 rfl
  obtain ⟨hterminal, -, hrestores⟩ := diamond_reachable.winner_round_trips constantMeaning
    (Set.mem_univ 7) (Set.mem_univ 8) (Set.mem_univ 9) 10 top_lt_size_diamond hv
    (constantMeaning_blind _ _) hwrap
  exact ⟨hv, hwrap, hterminal, hwhich, hrestores c right_mem_diamond_top hwhich⟩

end World

end CaseUnion
