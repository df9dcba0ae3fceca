import CaseUnion.Proofs.Execution

/-!
# The unions of a registry

A union of a registry is what the registry itself wraps a value in, or what the handle of one of its
cases builds (`World.UnionOf`).  A nested case builds of a union of its registry.  If it is guarded,
it builds of one that the registry itself has answered.

Every union of a registry belongs to the registry, and the handle that has built it matches it
(`World.Reachable.unions_belong`).  The handle may have kept layers that the registry would not make
itself, and an earlier case may recognise the terminal value too.  Neither matters, since a case
matches if it sees any item in the terminal value.  So the proof follows how the union was made, and
what it carries along is that the case of the last handle sees something.
-/

namespace CaseUnion

/-- A registry wraps the terminal value of a value as it wraps the value. -/
theorem Host.wrapValue_terminal {C P : Type} {m : Type → Type} [Monad m] (host : Host C P m)
    (id : RegistryId) (v : Value) : host.wrapValue id v.terminal = host.wrapValue id v := by
  rw [wrapValue, wrapValue, walk, walk, Value.terminal_terminal]

namespace World

variable {C P : Type} {w : World C P} {μ : Meaning C P} {blocks : Set Nat} {block : Nat}
  {id : RegistryId} {c : Case C P} {u : Union}

/-! ## What a handle stores -/

/-- No case is of the type of values or of layers. -/
theorem Reachable.declaredType?_ne (hw : w.Reachable) (hc : c ∈ (w.registry id).cases)
    {type : ItemType} (htype : c.recogniser.declaredType? = some type) :
    type ≠ .value ∧ type ≠ .layer := by
  induction hw generalizing id with
  | start => cases hc
  | @step w hw operation _ ih =>
      rcases Operation.mem_cases_apply hc with hold | ⟨name, -, hfault⟩
      · exact ih hold
      · have hplain := (hw.fault?_eq_none_iff.mp hfault).1
        constructor
        · rintro rfl
          exact hplain ⟨.value, htype, trivial⟩
        · rintro rfl
          exact hplain ⟨.layer, htype, trivial⟩

/-- No case is of the type of the unions of a registry.  Only a case that is older than the registry
could be. -/
def NamesNoUnions (w : World C P) : Prop :=
  ∀ id, ∀ c ∈ (w.registry id).cases, ∀ tag,
    c.recogniser.declaredType? = some (.union tag) → ¬ w.HasTag tag

/-- Then no case is of a type whose items stand for wrapped values. -/
theorem NamesNoUnions.not_wraps (hnames : w.NamesNoUnions) (hw : w.Reachable)
    (hc : c ∈ (w.registry id).cases) {type : ItemType}
    (htype : c.recogniser.declaredType? = some type) : ¬ w.Wraps type := by
  obtain ⟨hvalue, hlayer⟩ := hw.declaredType?_ne hc htype
  cases type with
  | datum d => exact fun h => h
  | union tag => exact hnames id c hc tag htype
  | value => exact absurd rfl hvalue
  | layer => exact absurd rfl hlayer

/-- What is stored for an item that does not stand for a wrapped value has the item as its
content. -/
theorem Reachable.content_terminal_ofItem (hw : w.Reachable) {item : Item}
    (h : ¬ w.Wraps item.type) (block : Nat) :
    (Value.ofItem w.wrappers block item).terminal.content = item := by
  cases item with
  | datum d => cases d <;> rfl
  | union u =>
      have htag : u.tag ∉ w.wrappers := fun hmem => h ((hw.mem_wrappers_iff u.tag).mp hmem)
      rw [Value.ofItem, if_neg htag]
      rfl
  | value v => exact absurd trivial h
  | layer v => exact absurd trivial h

/-- A case that nests no registry sees an item in what its handle has built. -/
theorem Reachable.isSome_sees_of_wrap (hw : w.Reachable) (hnames : w.NamesNoUnions)
    (hc : c ∈ (w.registry id).cases) (hplain : c.recogniser.child? = none)
    (hself : ∀ expected, c.literal? = some expected → expected.same expected = true) {given : Item}
    (h : (c.wrap (Host.ofWorld w μ block) given).run = some u)
    (answers : RegistryId → Option Union) :
    (c.recogniser.sees μ answers u.terminal).isSome = true := by
  cases Case.builds_of_run_wrap h with
  | @literal expected hrecogniser =>
      have hplain : ¬ w.Wraps expected.type := hnames.not_wraps hw hc (by rw [hrecogniser]; rfl)
      have hcontent := hw.content_terminal_ofItem hplain block
      have hsame := hself expected (by rw [Case.literal?, hrecogniser])
      have hcast : (Value.ofItem w.wrappers block expected).terminal.downcast expected.type
          = some expected :=
        Value.downcast_eq_some_iff.mpr ⟨congrArg Item.type hcontent, hcontent.symm⟩
      simp only [hrecogniser, Recogniser.sees, Union.terminal, hcast, Option.filter_some, hsame]
      rfl
  | @ofType type guard hrecogniser _ htype hguard =>
      have hplain : ¬ w.Wraps given.type :=
        hnames.not_wraps hw hc (by rw [hrecogniser, htype]; rfl)
      have hcontent := hw.content_terminal_ofItem hplain block
      have hcast : (Value.ofItem w.wrappers block given).terminal.downcast type = some given :=
        Value.downcast_eq_some_iff.mpr ⟨(congrArg Item.type hcontent).trans htype, hcontent.symm⟩
      simp only [hrecogniser, Recogniser.sees, Union.terminal, hcast, Option.filter_some, hguard]
      rfl
  | byCast hrecogniser hcast =>
      rw [hw.sound.cast_eq μ block hc, Value.terminal_terminal] at hcast
      rw [hrecogniser] at hcast ⊢
      rw [Union.terminal, Value.terminal_terminal]
      exact hcast
  | nested hrecogniser => rw [hrecogniser] at hplain; cases hplain

/-! ## Unions of a registry -/

/-- A union of a registry, by what made it: the registry itself, or the handle of a case.  Every
step has a block of its own. -/
inductive UnionOf (w : World C P) (μ : Meaning C P) (blocks : Set Nat) :
    RegistryId → Option (Case C P) → Union → Prop
  | wrapped {id : RegistryId} {v : Value} {block : Nat} {u : Union} (hblock : block ∈ blocks)
      (hwrap : ((Host.ofWorld w μ block).wrapValue id v).run = some u) :
      UnionOf w μ blocks id none u
  /-- The handle of a case that nests no registry has built the union of an item.  A literal has to
  be equal to itself. -/
  | built {id : RegistryId} {c : Case C P} {given : Item} {block : Nat} {u : Union}
      (hblock : block ∈ blocks) (hc : c ∈ (w.registry id).cases)
      (hplain : c.recogniser.child? = none)
      (hself : ∀ expected, c.literal? = some expected → expected.same expected = true)
      (hwrap : (c.wrap (Host.ofWorld w μ block) given).run = some u) :
      UnionOf w μ blocks id (some c) u
  | builtOfValue {id : RegistryId} {c : Case C P} {v : Value} {block : Nat} {u : Union}
      (hblock : block ∈ blocks) (hc : c ∈ (w.registry id).cases)
      (hwrap : (c.wrapValue (Host.ofWorld w μ block) v).run = some u) :
      UnionOf w μ blocks id (some c) u
  /-- The handle of a nested case has built the union of one of its registry.  If it is guarded, the
  registry itself has made that one. -/
  | nested {id child : RegistryId} {c : Case C P} {guard : Option P} {maker : Option (Case C P)}
      {inner : Union} {block : Nat} {u : Union} (hblock : block ∈ blocks)
      (hc : c ∈ (w.registry id).cases) (hrecogniser : c.recogniser = .nested child guard)
      (hinner : UnionOf w μ blocks child maker inner) (hmaker : guard = none ∨ maker = none)
      (hwrap : (c.wrap (Host.ofWorld w μ block) (.union inner)).run = some u) :
      UnionOf w μ blocks id (some c) u

/-- What a registry wraps a value in has the terminal value of the value. -/
theorem Sound.terminal_of_wrapValue (hw : w.Sound) {v : Value}
    (hwrap : ((Host.ofWorld w μ block).wrapValue id v).run = some u) :
    u.terminal = v.terminal := by
  rw [hw.wrapValue_eq_unmemoised] at hwrap
  obtain ⟨outline, rfl⟩ := exists_outline_of_unmemoised hw.wellFounded hwrap
  simp

/-- What a registry wraps a value in passes the same guards in every block. -/
theorem Sound.exists_wrapValue_in (hw : w.Sound) {v : Value} (hblind : μ.Blind blocks v.terminal)
    {b b' : Nat} (hb : b ∈ blocks) (hb' : b' ∈ blocks)
    (hwrap : ((Host.ofWorld w μ b).wrapValue id v).run = some u) :
    ∃ own, ((Host.ofWorld w μ b').wrapValue id v).run = some own ∧
      ∀ guard, μ.guards guard (.union own) = μ.guards guard (.union u) := by
  rw [hw.wrapValue_eq_unmemoised] at hwrap ⊢
  obtain ⟨outline, rfl, houtline⟩ := exists_outline_in hw.wellFounded hblind hb hb' hwrap
  exact ⟨_, houtline, fun guard => hblind.guards_eq hb' hb guard outline⟩

/-- A registry wraps the terminal value of a union that it has made, and guards judge the outcome as
they judge the union. -/
theorem Sound.exists_wrapValue_terminal (hw : w.Sound) (hblind : μ.Blind blocks u.terminal)
    {wrapping : Nat} (hwrapping : wrapping ∈ blocks) (hblock : block ∈ blocks) {v : Value}
    (hwrap : ((Host.ofWorld w μ wrapping).wrapValue id v).run = some u) :
    ∃ own, ((Host.ofWorld w μ block).wrapValue id u.terminal).run = some own ∧
      ∀ guard, μ.guards guard (.union own) = μ.guards guard (.union u) := by
  have hterminal := hw.terminal_of_wrapValue hwrap
  rw [hterminal] at hblind ⊢
  rw [Host.wrapValue_terminal]
  exact hw.exists_wrapValue_in hblind hwrapping hblock hwrap

/-- Some case of the registry sees an item in a union of it, in every block.  If a handle has built
the union, it is the case of that handle.  A guard of a nested case has passed a child union that
the nested registry has made itself, maybe in another block, and so passes what that makes now. -/
theorem UnionOf.exists_sees (hw : w.Reachable)
    (hnames : w.NamesNoUnions) {maker : Option (Case C P)} (h : w.UnionOf μ blocks id maker u)
    (hblind : μ.Blind blocks u.terminal) :
    ∃ c ∈ (w.registry id).cases, (∀ d, maker = some d → c = d) ∧ ∀ block ∈ blocks,
      (c.recogniser.sees μ (w.unmemoised hw.sound.wellFounded μ block u.terminal)
        u.terminal).isSome = true := by
  have hwf := hw.sound.wellFounded
  induction h with
  | @wrapped id v wrapping u hblock hwrap =>
      rw [hw.sound.wrapValue_eq_unmemoised] at hwrap
      obtain ⟨outline, rfl⟩ := exists_outline_of_unmemoised hwf hwrap
      rw [Outline.terminal_union, Value.terminal_terminal] at hblind ⊢
      obtain ⟨c, hc, hsees⟩ := (isSome_unmemoised_iff hwf).mp (by rw [hwrap]; rfl)
      exact ⟨c, hc, nofun, fun block hmem =>
        (isSome_sees_eq hwf hblind hmem hblock c.recogniser).trans hsees⟩
  | @built id c given _ u _ hc hplain hself hwrap =>
      exact ⟨c, hc, fun d hd => Option.some.inj hd, fun block _ =>
        hw.isSome_sees_of_wrap hnames hc hplain hself hwrap _⟩
  | @builtOfValue id c v building u _ hc hwrap =>
      obtain ⟨⟨cast, guard, hrecogniser⟩, hcast, rfl⟩ := Case.of_run_wrapValue hwrap
      refine ⟨c, hc, fun d hd => Option.some.inj hd, fun block _ => ?_⟩
      rw [hw.sound.cast_eq μ building hc, Value.terminal_terminal, hrecogniser] at hcast
      rw [hrecogniser, Union.terminal, Value.terminal_terminal]
      exact hcast
  | @nested id child c guard maker inner building u _ hc hrecogniser hinner hmaker hwrap ih =>
      obtain ⟨hguarded, rfl⟩ := (Case.run_wrap_nested_iff hrecogniser).mp hwrap
      refine ⟨c, hc, fun d hd => Option.some.inj hd, fun block hblock => ?_⟩
      rw [Union.terminal, Union.toValue, Value.terminal_boxed] at hblind ⊢
      obtain ⟨d, hd, -, hsees⟩ := ih hblind
      obtain ⟨answer, hanswer⟩ := Option.isSome_iff_exists.mp
        ((isSome_unmemoised_iff hwf).mpr ⟨d, hd, hsees block hblock⟩)
      have hguard : μ.guards guard (.union answer) = true := by
        rcases hmaker with rfl | rfl
        · rfl
        · cases hinner with
          | wrapped hwrapping hinner =>
              obtain ⟨_, hsame, hguards⟩ :=
                hw.sound.exists_wrapValue_terminal hblind hwrapping hblock hinner
              rw [hw.sound.wrapValue_eq_unmemoised, Union.terminal, Value.terminal_terminal,
                ← Union.terminal, hanswer] at hsame
              rw [Option.some.inj hsame, hguards, hguarded]
      rw [hrecogniser, Recogniser.sees, ← Union.terminal, hanswer, Option.map_some,
        Option.filter_some, if_pos hguard]
      rfl

/-- A registry wraps the terminal value of every union of it. -/
theorem UnionOf.exists_wrapValue_terminal (hw : w.Reachable)
    (hnames : w.NamesNoUnions) {maker : Option (Case C P)} (h : w.UnionOf μ blocks id maker u)
    (hblind : μ.Blind blocks u.terminal) (hblock : block ∈ blocks) :
    ∃ own, ((Host.ofWorld w μ block).wrapValue id u.terminal).run = some own := by
  obtain ⟨c, hc, -, hsees⟩ := h.exists_sees hw hnames hblind
  rw [hw.sound.wrapValue_eq_unmemoised, Union.terminal, Value.terminal_terminal,
    ← Option.isSome_iff_exists, isSome_unmemoised_iff]
  exact ⟨c, hc, hsees block hblock⟩

/-- Every union of a registry belongs to a case of the registry.  If a handle has built the union,
it matches it, and the case that the union belongs to is its case or an earlier one.  Here no case
is of the type of the unions of a registry, and the predicates are blind to the blocks of the
calls. -/
theorem Reachable.unions_belong (hw : w.Reachable)
    (hnames : w.NamesNoUnions) {maker : Option (Case C P)} (h : w.UnionOf μ blocks id maker u)
    (hblind : μ.Blind blocks u.terminal) {asking testing : Nat} (hasking : asking ∈ blocks)
    (htesting : testing ∈ blocks) :
    ∃ info, ((Host.ofWorld w μ asking).which id u).run = some info ∧
      ∀ c, maker = some c →
        (c.accepts (Host.ofWorld w μ testing) u).run = true ∧ info.ordinal ≤ c.ordinal := by
  obtain ⟨c, hc, hmaker, hsees⟩ := h.exists_sees hw hnames hblind
  have haccepts : ∀ block ∈ blocks, (c.accepts (Host.ofWorld w μ block) u).run = true := by
    intro block hblock
    rw [accepts_eq_isSome_cast _ c (v := u.inner) rfl, hw.sound.cast_eq μ block hc]
    exact hsees block hblock
  have hwhich := hw.sound.which_eq_find?_accepts hblind hasking (fun _ => htesting) id
  have hsome : ((w.registry id).cases.find? fun d =>
      (d.accepts (Host.ofWorld w μ testing) u).run).isSome = true :=
    List.find?_isSome.mpr ⟨c, hc, haccepts testing htesting⟩
  obtain ⟨first, hfind⟩ := Option.isSome_iff_exists.mp hsome
  have hfirst := (hw.sound.ordered id).first_of_find? hfind
  rw [hfind] at hwhich
  refine ⟨first.info, hwhich, fun d hd => ?_⟩
  rw [← hmaker d hd]
  exact ⟨haccepts testing htesting, hfirst.least c hc (haccepts testing htesting)⟩

/-- In the diamond a handle at the bottom builds a union of a number, the handle of the right branch
one of that, and the handle at the top one of that.  No registry has wrapped anything, and each call
has a block of its own. -/
theorem diamond_unions_belong :
    let v : Value := .scalar ⟨7, 0⟩ (.int32 5)
    let u : Union := ⟨⟨"top"⟩, .layer ⟨9, 2⟩ (.layer ⟨8, 1⟩ v)⟩
    let c : Case Empty Bool := ⟨"Top", "right", 1, ⟨"top"⟩, .nested 2 none⟩
    diamond.NamesNoUnions ∧
      diamond.UnionOf constantMeaning Set.univ 3 (some c) u ∧
      constantMeaning.Blind Set.univ u.terminal ∧
      ∃ info, ((Host.ofWorld diamond constantMeaning 10).which 3 u).run = some info ∧
        (c.accepts (Host.ofWorld diamond constantMeaning 11) u).run = true ∧ info.ordinal ≤ 1 := by
  intro v u c
  have hnames : diamond.NamesNoUnions := by
    intro id c hc tag htype
    rw [diamond_eq] at hc
    rcases id with _ | _ | _ | _ | id
    · cases List.mem_singleton.mp hc
      cases htype
    · cases List.mem_singleton.mp hc
      cases htype
    · cases List.mem_singleton.mp hc
      cases htype
    · rcases List.mem_pair.mp hc with rfl | rfl <;> cases htype
    · cases hc
  have hleaf : diamond.UnionOf constantMeaning Set.univ 0
      (some ⟨"Leaf", "int", 0, ⟨"leaf"⟩, .ofType (.datum .int32) none⟩) ⟨⟨"leaf"⟩, v⟩ := by
    have hwrap : (Case.wrap (Host.ofWorld diamond constantMeaning 7)
        ⟨"Leaf", "int", 0, ⟨"leaf"⟩, .ofType (.datum .int32) none⟩ (.ofScalar (.int32 5))).run
        = some ⟨⟨"leaf"⟩, v⟩ := rfl
    exact .built (Set.mem_univ 7) int_mem_diamond_leaf rfl nofun hwrap
  have hright : diamond.UnionOf constantMeaning Set.univ 2
      (some ⟨"Right", "plain", 0, ⟨"right"⟩, .nested 0 none⟩)
      ⟨⟨"right"⟩, .layer ⟨8, 1⟩ v⟩ :=
    .nested (Set.mem_univ 8) plain_mem_diamond_right rfl hleaf (.inl rfl) rfl
  have htop : diamond.UnionOf constantMeaning Set.univ 3 (some c) u :=
    .nested (Set.mem_univ 9) right_mem_diamond_top rfl hright (.inl rfl) rfl
  have hblind := constantMeaning_blind Set.univ u.terminal
  obtain ⟨info, hwhich, hmaker⟩ := diamond_reachable.unions_belong hnames htop hblind
    (Set.mem_univ 10) (Set.mem_univ 11)
  obtain ⟨hmatches, hordinal⟩ := hmaker c rfl
  exact ⟨hnames, htop, hblind, info, hwhich, hmatches, hordinal⟩

end World

end CaseUnion
