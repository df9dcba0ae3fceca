import CaseUnion.Proofs.Execution
import CaseUnion.Proofs.Representation

/-!
# Types of unions that nobody can have yet

A case may name the type of the unions of a tag before a registry of that tag is created.  From the
moment there is such a registry, and for ever after, another case of the type is refused.  The case
that was accepted stays, but it is inert (`Execution.early_types_inert`).  Before the registry is
created nobody has a union of the tag.  Afterwards such a union is stored as a layer, and what is
discriminated is the terminal value behind it.  So no handle of the case ever sees anything, and the
registry answers every value as it would without the case.

To say the last, `Registry.without` takes a case out and declares the others anew, in their order.
Their ordinals change, but not their names and recognisers, and answers depend on nothing else
(`Registry.answer_eq_firstDeclared`).
-/

namespace CaseUnion

variable {C P : Type}

/-! ## Declaring cases anew -/

namespace Registry

/-- The names and recognisers of the cases, in the order of declaration. -/
def declared (r : Registry C P) : List (String × Recogniser C P) :=
  r.cases.map fun c => (c.name, c.recogniser)

/-- The registry after one more declaration. -/
def declare (r : Registry C P) (declaration : String × Recogniser C P) : Registry C P :=
  r.push (r.nextCase declaration.1 declaration.2)

/-- The registry with other declarations, made in their order. -/
def redeclare (r : Registry C P) (declarations : List (String × Recogniser C P)) : Registry C P :=
  declarations.foldl declare { r with cases := [], places := ∅ }

/-- The registry without the case of a name. -/
def without (r : Registry C P) (name : String) : Registry C P :=
  r.redeclare (r.declared.filter fun declaration => declaration.1 ≠ name)

variable (r : Registry C P)

theorem redeclare_snoc (declarations : List (String × Recogniser C P))
    (last : String × Recogniser C P) :
    r.redeclare (declarations ++ [last]) = (r.redeclare declarations).declare last := by
  simp [redeclare]

@[simp] theorem declared_redeclare (declarations : List (String × Recogniser C P)) :
    (r.redeclare declarations).declared = declarations := by
  induction declarations using List.reverseRecOn with
  | nil => rfl
  | append_singleton declarations last ih =>
      rw [redeclare_snoc, declare, declared, cases_push, List.map_append, ← declared, ih]
      rfl

@[simp] theorem tag_redeclare (declarations : List (String × Recogniser C P)) :
    (r.redeclare declarations).tag = r.tag := by
  induction declarations using List.reverseRecOn with
  | nil => rfl
  | append_singleton declarations last ih =>
      rw [redeclare_snoc]
      exact ih

/-- Declarations under different names keep the order. -/
theorem ordered_redeclare {declarations : List (String × Recogniser C P)}
    (h : (declarations.map Prod.fst).Nodup) : (r.redeclare declarations).Ordered := by
  induction declarations using List.reverseRecOn with
  | nil => exact .of_empty rfl rfl
  | append_singleton declarations last ih =>
      rw [List.map_append, List.nodup_append] at h
      obtain ⟨hdeclarations, -, hlast⟩ := h
      have hordered := ih hdeclarations
      rw [redeclare_snoc, declare]
      refine hordered.push_nextCase (fun htaken => ?_) last.2
      obtain ⟨c, hc, hname⟩ := (hordered.mem_places_iff last.1).mp htaken
      have hmem : (c.name, c.recogniser) ∈ (r.redeclare declarations).declared :=
        List.mem_map_of_mem hc
      rw [declared_redeclare] at hmem
      exact hlast _ (List.mem_map_of_mem hmem) _ (List.mem_singleton_self _) hname

theorem children_eq_filterMap_declared :
    r.children = r.declared.filterMap fun declaration => declaration.2.child? := by
  rw [children, declared, List.filterMap_map]
  rfl

/-- Without a case there are no other children. -/
theorem children_without_subset (name : String) : (r.without name).children ⊆ r.children := by
  rw [children_eq_filterMap_declared, children_eq_filterMap_declared, without, declared_redeclare]
  exact List.filterMap_subset _ (List.filter_subset_self _)

end Registry

/-! ## Answers depend on names and recognisers -/

namespace Registry

variable {μ : Meaning C P} {answers answers' : RegistryId → Option Union} {block : Nat}
  {terminal : Value}

/-- The first declaration that recognises a terminal value. -/
def firstDeclared (μ : Meaning C P) (answers : RegistryId → Option Union) (terminal : Value)
    (r : Registry C P) : Option (String × Recogniser C P) :=
  r.declared.find? fun declaration => (declaration.2.sees μ answers terminal).isSome

theorem firstDeclared_eq (r : Registry C P) :
    r.firstDeclared μ answers terminal
      = (r.cases.find? fun c => (c.recogniser.sees μ answers terminal).isSome).map
          fun c => (c.name, c.recogniser) := by
  rw [firstDeclared, declared, List.find?_map]
  rfl

/-- The answer of a registry is what the first declaration that recognises the value keeps. -/
theorem answer_eq_firstDeclared (r : Registry C P) :
    r.answer μ answers block terminal
      = ((r.firstDeclared μ answers terminal).bind fun declaration =>
          declaration.2.keeps μ answers block terminal).map (Union.mk r.tag) := by
  rw [answer_eq, firstDeclared_eq, ← map_firstSeen]
  cases hfirst : r.firstSeen μ answers terminal with
  | none => rfl
  | some seen =>
      obtain ⟨c, item⟩ := seen
      have hsees := (of_firstSeen_eq_some hfirst).2
      simp [Recogniser.keeps_eq, hsees]

/-- A case that recognises nothing is not missed. -/
theorem firstDeclared_without {r : Registry C P} {name : String}
    (h : ∀ c ∈ r.cases, c.name = name → c.recogniser.sees μ answers terminal = none) :
    (r.without name).firstDeclared μ answers terminal = r.firstDeclared μ answers terminal := by
  rw [firstDeclared, without, declared_redeclare, List.find?_filter, firstDeclared]
  refine List.find?_congr fun declaration hdeclaration => ?_
  obtain ⟨c, hc, rfl⟩ := List.mem_map.mp hdeclaration
  by_cases hname : c.name = name
  · simp [h c hc hname]
  · simp [hname]

end Registry

/-! ## A world without a case -/

namespace World

/-- The world in which a registry does not have the case of a name. -/
def without (w : World C P) (id : RegistryId) (name : String) : World C P :=
  w.update id fun r => r.without name

variable {w : World C P} {id : RegistryId} {name : String}

@[simp] theorem size_without : (w.without id name).size = w.size := size_update ..

theorem children_without_subset (other : RegistryId) :
    (w.without id name).children other ⊆ w.children other := by
  rw [children, without, registry_update]
  split
  next heq =>
    rw [heq.1]
    exact Registry.children_without_subset _ name
  next => exact List.Subset.refl _

theorem Sound.without (hw : w.Sound) (id : RegistryId) (name : String) :
    (w.without id name).Sound where
  ordered other := by
    rw [World.without, registry_update]
    split
    next =>
      refine Registry.ordered_redeclare _ (List.Nodup.sublist ?_ (hw.ordered id).nodup_names)
      have hnames :
          (w.registry id).cases.map Case.name = (w.registry id).declared.map Prod.fst := by
        rw [Registry.declared, List.map_map]
        rfl
      rw [hnames]
      exact List.filter_sublist.map Prod.fst
    next => exact hw.ordered other
  child_lt_size child other h := by
    rw [size_without]
    exact hw.child_lt_size child other (children_without_subset other h)
  wellFounded := Subrelation.wf (fun h => children_without_subset _ h) hw.wellFounded

theorem tag_without (other : RegistryId) :
    ((w.without id name).registry other).tag = (w.registry other).tag := by
  rw [without, registry_update]
  split
  next heq => rw [heq.1, Registry.without, Registry.tag_redeclare]
  next => rfl

/-- The name of the case that a union belongs to is that of the first declaration that recognises
its terminal value. -/
theorem Sound.map_name_which (hw : w.Sound) (μ : Meaning C P) (block : Nat) (id : RegistryId)
    (u : Union) :
    ((Host.ofWorld w μ block).which id u).run.map CaseInfo.name
      = ((w.registry id).firstDeclared μ (w.unmemoised hw.wellFounded μ block u.terminal)
          u.terminal).map Prod.fst := by
  rw [hw.which_eq, Registry.firstDeclared_eq, Option.map_map, Option.map_map]
  rfl

section Inert

variable {μ : Meaning C P} {block : Nat} {terminal : Value}

/-- The cases of a name in a registry recognise nothing in a terminal value. -/
def Inert (w : World C P) (μ : Meaning C P) (id : RegistryId) (name : String) (terminal : Value) :
    Prop :=
  ∀ c ∈ (w.registry id).cases, c.name = name →
    ∀ answers, c.recogniser.sees μ answers terminal = none

/-- Without an inert case the first declaration that recognises a value is the same in every
registry. -/
theorem Inert.firstDeclared_without (h : w.Inert μ id name terminal) (other : RegistryId)
    (answers : RegistryId → Option Union) :
    ((w.without id name).registry other).firstDeclared μ answers terminal
      = (w.registry other).firstDeclared μ answers terminal := by
  rw [World.without, registry_update]
  split
  next heq =>
    rw [heq.1]
    exact Registry.firstDeclared_without fun c hc hname => h c hc hname answers
  next => rfl

/-- Without an inert case every registry answers as before. -/
theorem Inert.unmemoised_without (h : w.Inert μ id name terminal) (hw : w.Sound)
    (other : RegistryId) :
    (w.without id name).unmemoised (hw.without id name).wellFounded μ block terminal other
      = w.unmemoised hw.wellFounded μ block terminal other := by
  induction other using hw.wellFounded.induction with
  | _ other ih =>
      have hwf := (hw.without id name).wellFounded
      have hsame : ((w.without id name).registry other).firstSeen μ
          ((w.without id name).unmemoised hwf μ block terminal) terminal
          = ((w.without id name).registry other).firstSeen μ
              (w.unmemoised hw.wellFounded μ block terminal) terminal :=
        Registry.firstSeen_congr fun child hchild => ih child (children_without_subset other hchild)
      rw [unmemoised_eq, Registry.answer_eq, hsame, ← Registry.answer_eq, unmemoised_eq,
        Registry.answer_eq_firstDeclared, h.firstDeclared_without, tag_without,
        ← Registry.answer_eq_firstDeclared]

/-- Without an inert case every registry wraps a value as before. -/
theorem Inert.wrapValue_without {v : Value} (h : w.Inert μ id name v.terminal) (hw : w.Sound)
    (other : RegistryId) :
    ((Host.ofWorld (w.without id name) μ block).wrapValue other v).run
      = ((Host.ofWorld w μ block).wrapValue other v).run := by
  rw [(hw.without id name).wrapValue_eq_unmemoised, hw.wrapValue_eq_unmemoised,
    h.unmemoised_without hw]

/-- Without an inert case every union belongs to a case of the same name as before. -/
theorem Inert.which_without {u : Union} (h : w.Inert μ id name u.terminal) (hw : w.Sound)
    (other : RegistryId) :
    ((Host.ofWorld (w.without id name) μ block).which other u).run.map CaseInfo.name
      = ((Host.ofWorld w μ block).which other u).run.map CaseInfo.name := by
  have hanswers : (w.without id name).unmemoised (hw.without id name).wellFounded μ block u.terminal
      = w.unmemoised hw.wellFounded μ block u.terminal :=
    funext fun other => h.unmemoised_without hw other
  rw [(hw.without id name).map_name_which, hw.map_name_which, hanswers, h.firstDeclared_without]

end Inert

end World

/-! ## Early types -/

/-- A case of the type of a union sees nothing in a value that is made. -/
theorem Recogniser.sees_ofType_union_eq_none {μ : Meaning C P}
    {answers : RegistryId → Option Union} {tag : Tag} {guard : Option P} {v : Value}
    (hv : v.Made) :
    (ofType (.union tag) guard : Recogniser C P).sees μ answers v.terminal = none := by
  obtain ⟨type, htype⟩ := hv.exists_type_eq
  simp [sees, Value.downcast, htype]

namespace World

variable {w w' : World C P}

/-- The tag of a registry is the tag of a registry in every later world. -/
theorem Later.hasTag (h : w.Later w') {tag : Tag} (htag : w.HasTag tag) : w'.HasTag tag := by
  obtain ⟨id, hid, rfl⟩ := htag
  exact ⟨id, hid.trans_le h.size_le, (h.extends hid).tag⟩

/-- Where a registry has the tag, a case of the type of its unions is refused. -/
theorem Reachable.register_ofType_union (hw : w.Reachable) {tag : Tag} (htag : w.HasTag tag)
    (id : RegistryId) (name : String) (guard : Option P) :
    w.register id name (.ofType (.union tag) guard)
      = .error (.wrapperType (w.registry id).label name (.union tag)) :=
  register_eq_error_iff.mpr (hw.fault?_of_refuses (.wrapperType _ rfl htag))

end World

/-- From the moment a registry has a tag, a case of the type of its unions is refused, now and in
every later world.  Such a case that was accepted earlier is inert, whether or not the registry has
come to be.  Its handle sees nothing in any value or union that the program has at hand, nor in one
that it builds itself, and without the case every registry wraps every value as before and tells of
a union the case of the same name.  The reason is that the terminal value of every value at hand
stores a datum. -/
theorem Execution.early_types_inert {μ : Meaning C P} {w : World C P} {items : List Item}
    {next : Nat} (h : Execution μ w items next) (tag : Tag) :
    (w.HasTag tag → ∀ w', w.Later w' → ∀ (id : RegistryId) (name : String) (guard : Option P),
      w'.register id name (.ofType (.union tag) guard)
        = .error (.wrapperType (w'.registry id).label name (.union tag))) ∧
    (∀ id, ∀ c ∈ (w.registry id).cases, ∀ guard, c.recogniser = .ofType (.union tag) guard →
      ∀ block, let host := Host.ofWorld w μ block
        (∀ v, .value v ∈ items → (c.cast host v).run = none) ∧
        (∀ u, .union u ∈ items → (c.unwrap host u).run = none) ∧
        (∀ given ∈ items, ∀ u, (c.wrap host given).run = some u → (c.unwrap host u).run = none) ∧
        let host' := Host.ofWorld (w.without id c.name) μ block
        ∀ v, .value v ∈ items → ∀ other,
          (host'.wrapValue other v).run = (host.wrapValue other v).run ∧
          ∀ u : Union, u.terminal = v.terminal →
            (host'.which other u).run.map CaseInfo.name
              = (host.which other u).run.map CaseInfo.name) ∧
    ∀ v, .value v ∈ items → ∃ type, v.terminal.type = .datum type := by
  have hw := h.reachable
  refine ⟨fun htag w' hlater id name guard => ?_, fun id c hc guard hrecogniser block => ?_,
    fun v hv => (h.made hv).exists_type_eq⟩
  · exact (hw.later hlater).register_ofType_union (hlater.hasTag htag) id name guard
  · have hcast : ∀ v : Value, v.Made → (c.cast (Host.ofWorld w μ block) v).run = none := by
      intro v hv
      rw [hw.sound.cast_eq μ block hc, hrecogniser, Recogniser.sees_ofType_union_eq_none hv]
    have hunwrap : ∀ u : Union, (Item.union u).Made w.wrappers →
        (c.unwrap (Host.ofWorld w μ block) u).run = none := fun u hu => hcast _ hu.2.terminal
    have hinert : ∀ v : Value, v.Made → w.Inert μ id c.name v.terminal := by
      intro v hv d hd hname answers
      obtain rfl : d = c := List.inj_on_of_nodup_map (hw.sound.ordered id).nodup_names hd hc hname
      rw [hrecogniser, Recogniser.sees_ofType_union_eq_none hv]
    refine ⟨fun v hv => hcast v (h.made hv), fun u hu => hunwrap u (h.stocked.items _ hu),
      fun given hgiven u hu => ?_, fun v hv other => ⟨?_, fun u hu => ?_⟩⟩
    · exact hunwrap u (hw.made_of_wrap hc (h.stocked.literals id c hc)
        (h.stocked.items given hgiven) hu)
    · exact (hinert v (h.made hv)).wrapValue_without hw.sound other
    · exact World.Inert.which_without (hu ▸ hinert v (h.made hv)) hw.sound other

/-- A world in which a case names the type of the unions of a registry that comes later. -/
def World.belated : World Empty Bool :=
  ([.create "Early" .matching ⟨"early"⟩, .register 0 "late" (.ofType (.union ⟨"late"⟩) none),
    .register 0 "int" (.ofType (.datum .int32) none), .create "Late" .matching ⟨"late"⟩,
    .register 1 "int" (.ofType (.datum .int32) none)] :
      List (Operation Empty Bool)).foldl Operation.apply {}

/-- The world, written out. -/
theorem World.belated_eq :
    belated = {
      registries := [
        { label := "Early", flavor := .matching, tag := ⟨"early"⟩,
          cases := [⟨"Early", "late", 0, ⟨"early"⟩, .ofType (.union ⟨"late"⟩) none⟩,
            ⟨"Early", "int", 1, ⟨"early"⟩, .ofType (.datum .int32) none⟩],
          places := ((∅ : Std.TreeMap String Nat).insert "late" 0).insert "int" 1 },
        { label := "Late", flavor := .matching, tag := ⟨"late"⟩,
          cases := [⟨"Late", "int", 0, ⟨"late"⟩, .ofType (.datum .int32) none⟩],
          places := (∅ : Std.TreeMap String Nat).insert "int" 0 }]
      wrappers := [⟨"late"⟩, ⟨"early"⟩] } := by
  cbv

/-- A program makes the world, a number, a union of the late registry around it, and a value of that
union. -/
theorem Execution.belated :
    let v : Value := .scalar ⟨1, 0⟩ (.int32 5)
    let u : Union := ⟨⟨"late"⟩, v⟩
    Execution World.constantMeaning World.belated
      [.value (.layer ⟨3, 1⟩ v), .union u, .value v, .ofScalar (.int32 5)] 4 := by
  intro v u
  have hworld : Execution World.constantMeaning World.belated [] 0 := by
    simp only [World.belated, List.foldl_cons, List.foldl_nil]
    refine .operate (.operate (.operate (.operate (.operate .start (.create ..) trivial ?_)
      (.register ..) ?_ ?_) (.register ..) ?_ ?_) (.create ..) trivial ?_) (.register ..) ?_ ?_
    all_goals
      intro _ h
      cases h
  have hnumber := hworld.make (.scalar (.int32 5))
  have hvalue := hnumber.make (.stored (List.mem_cons_self ..))
  have hwrap : ((Host.ofWorld World.belated World.constantMeaning 2).wrapValue 1 v).run
      = some u := by
    rw [World.belated_eq]
    rfl
  have hunion := hvalue.make (.wrapped (List.mem_cons_self ..) hwrap)
  have hlayer := hunion.make (.stored (List.mem_cons_self ..))
  have hstored : Value.ofItem World.belated.wrappers 3 (.union u) = .layer ⟨3, 1⟩ v := by
    rw [World.belated_eq]
    rfl
  rw [hstored] at hlayer
  exact hlayer

/-- The early case sees nothing in the union of the late registry.  The value behind it belongs to
the case that comes next, with and without the early one. -/
theorem Execution.belated_early_types_inert :
    let v : Value := .scalar ⟨1, 0⟩ (.int32 5)
    let u : Union := ⟨⟨"late"⟩, v⟩
    let items : List Item :=
      [.value (.layer ⟨3, 1⟩ v), .union u, .value v, .ofScalar (.int32 5)]
    let c : Case Empty Bool := ⟨"Early", "late", 0, ⟨"early"⟩, .ofType (.union ⟨"late"⟩) none⟩
    let host := Host.ofWorld World.belated World.constantMeaning 4
    let host' := Host.ofWorld (World.belated.without 0 "late") World.constantMeaning 4
    Execution World.constantMeaning World.belated items 4 ∧
      c ∈ (World.belated.registry 0).cases ∧ World.belated.HasTag ⟨"late"⟩ ∧
      World.belated.register 0 "again" (.ofType (.union ⟨"late"⟩) none)
        = .error (.wrapperType "Early" "again" (.union ⟨"late"⟩)) ∧
      (c.cast host (.layer ⟨3, 1⟩ v)).run = none ∧
      (c.wrap host (.union u)).run = some ⟨⟨"early"⟩, .layer ⟨4, 1⟩ v⟩ ∧
      (c.unwrap host ⟨⟨"early"⟩, .layer ⟨4, 1⟩ v⟩).run = none ∧
      (host'.wrapValue 0 (.layer ⟨3, 1⟩ v)).run = some ⟨⟨"early"⟩, v⟩ ∧
      (host'.which 0 u).run.map CaseInfo.name = some "int" := by
  intro v u items c host host'
  have hrun : Execution World.constantMeaning World.belated items 4 := Execution.belated
  have hc : c ∈ (World.belated.registry 0).cases := by
    rw [World.belated_eq]
    exact List.mem_cons_self ..
  have htag : World.belated.HasTag ⟨"late"⟩ := by
    refine ⟨1, ?_, ?_⟩
    · rw [World.belated_eq]
      exact Nat.lt_add_one 1
    · rw [World.belated_eq]
      rfl
  have hlabel : (World.belated.registry 0).label = "Early" := by
    rw [World.belated_eq]
    rfl
  have hbuilt : (c.wrap host (.union u)).run = some ⟨⟨"early"⟩, .layer ⟨4, 1⟩ v⟩ := by
    unfold host
    rw [World.belated_eq]
    rfl
  have hwrap : (host.wrapValue 0 (.layer ⟨3, 1⟩ v)).run = some ⟨⟨"early"⟩, v⟩ := by
    unfold host
    rw [World.belated_eq]
    rfl
  have hwhich : (host.which 0 u).run.map CaseInfo.name = some "int" := by
    unfold host
    rw [World.belated_eq]
    rfl
  obtain ⟨hrefused, hinert, -⟩ := hrun.early_types_inert ⟨"late"⟩
  have herror := hrefused htag _ .refl 0 "again" none
  rw [hlabel] at herror
  obtain ⟨hcast, -, hown, hwithout⟩ := hinert 0 c hc none rfl 4
  have hlayer : Item.value (.layer ⟨3, 1⟩ v) ∈ items := List.mem_cons_self ..
  have hunion : Item.union u ∈ items := .tail _ (.head _)
  obtain ⟨hsame, hname⟩ := hwithout _ hlayer 0
  exact ⟨hrun, hc, htag, herror, hcast _ hlayer, hbuilt, hown _ hunion _ hbuilt,
    hsame.trans hwrap, (hname u rfl).trans hwhich⟩

end CaseUnion
