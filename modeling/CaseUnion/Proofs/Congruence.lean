import CaseUnion.Proofs.Coherence
import CaseUnion.Proofs.Rewrapping

/-!
# Equal values are discriminated alike

Custom casts and predicates may tell equal values apart.  The other cases do not.  A type is
common to equal values, a nested registry is asked about the same values, and a literal is equal to
both or to neither.  The last needs equality to be transitive, though the two values may be equal by
one stored value and each of them to the literal by contents.  So it is said of the values that a
program has at hand, where equality is transitive (`Value.Coherent.item_same_trans`).

A registry is *standard* if neither it nor any registry nested in it at some depth has a custom cast
or a predicate (`World.Standard`).  A standard registry wraps two equal values in equal unions,
along one path of first matches, or wraps neither (`Execution.equal_discriminated_alike`).
-/

namespace CaseUnion

open Relation (ReflTransGen)

variable {C P : Type}

/-! ## Standard cases -/

/-- A recogniser without a custom cast and without a predicate. -/
inductive Recogniser.Standard : Recogniser C P → Prop
  | literal (expected : Item) : Standard (.literal expected)
  | ofType (type : ItemType) : Standard (.ofType type none)
  | nested (child : RegistryId) : Standard (.nested child none)

/-- All cases of a registry, and of those nested in it at some depth, are standard. -/
def World.Standard (w : World C P) (id : RegistryId) : Prop :=
  ∀ below, ReflTransGen w.Nests below id →
    ∀ c ∈ (w.registry below).cases, c.recogniser.Standard

/-- What a standard registry nests is standard. -/
theorem World.Standard.child {w : World C P} {id child : RegistryId} (h : w.Standard id)
    (hchild : w.Nests child id) : w.Standard child :=
  fun below hbelow => h below (hbelow.tail hchild)

section Sees

variable {μ : Meaning C P} {answers answers' : RegistryId → Option Union} {v v' : Value}

theorem Recogniser.isSome_sees_literal_iff {expected : Item} :
    ((literal expected : Recogniser C P).sees μ answers v).isSome = true
      ↔ v.content.same expected = true := by
  constructor
  · intro hsome
    obtain ⟨item, hsees⟩ := Option.isSome_iff_exists.mp hsome
    obtain ⟨rfl, hsame⟩ := of_literal_sees hsees
    exact hsame
  · intro hsame
    have htype : v.type = expected.type := Item.type_eq_of_same hsame
    simp [sees, Value.downcast, htype, hsame]

theorem Recogniser.isSome_sees_ofType_iff {type : ItemType} :
    ((ofType type none : Recogniser C P).sees μ answers v).isSome = true ↔ v.type = type := by
  have hguards : μ.guards none = fun _ => true := rfl
  simp [sees, Value.downcast, hguards]

theorem Recogniser.isSome_sees_nested_iff {child : RegistryId} :
    ((nested child none : Recogniser C P).sees μ answers v).isSome = true
      ↔ (answers child).isSome = true := by
  have hguards : μ.guards none = fun _ => true := rfl
  simp [sees, hguards]

/-- A standard case that sees an item in a value sees one in every equal value, if the nested
registry still answers. -/
theorem Recogniser.Standard.isSome_sees {values : Set Value} {recogniser : Recogniser C P}
    (h : recogniser.Standard) (hvalues : Value.Coherent values) (hv : v ∈ values)
    (hv' : v' ∈ values) (hsame : v.same v' = true)
    (hliteral : ∀ expected, recogniser.literal? = some expected →
      ∀ root ∈ expected.roots, root ∈ values)
    (hanswers : ∀ child, recogniser.child? = some child →
      (answers child).isSome = true → (answers' child).isSome = true)
    (hsees : (recogniser.sees μ answers v).isSome = true) :
    (recogniser.sees μ answers' v').isSome = true := by
  cases h with
  | literal expected =>
      rw [isSome_sees_literal_iff] at hsees ⊢
      rw [Value.same_comm] at hsame
      rcases (hvalues.same_iff hv' hv).mp hsame with rfl | hcontent
      · exact hsees
      · exact hvalues.item_same_trans (fun root hroot => hvalues.root hv' hroot)
          (fun root hroot => hvalues.root hv hroot) (hliteral expected rfl) hcontent hsees
  | ofType type =>
      rw [isSome_sees_ofType_iff] at hsees ⊢
      rw [← hvalues.type_eq_of_same hv hv' hsame, hsees]
  | nested child =>
      rw [isSome_sees_nested_iff] at hsees ⊢
      exact hanswers child rfl hsees

end Sees

section Programs

variable {μ : Meaning C P} {w : World C P} {items : List Item} {next b b' : Nat} {id : RegistryId}
  {v v' : Value} {c : Case C P} (h : Execution μ w items next)

include h

/-- A literal is made of values at hand. -/
theorem Execution.roots_mem_of_literal? (hc : c ∈ (w.registry id).cases) {expected : Item}
    (hexpected : c.recogniser.literal? = some expected) :
    ∀ root ∈ expected.roots, root ∈ valuesIn items :=
  mem_valuesIn (h.literal_mem id c hc expected hexpected)

/-- A standard registry that answers to a value answers to every equal value. -/
theorem Execution.isSome_unmemoised (hv : v ∈ valuesIn items) (hv' : v' ∈ valuesIn items)
    (hsame : v.same v' = true) (hstandard : w.Standard id)
    (hanswer : (w.unmemoised h.reachable.sound.wellFounded μ b v id).isSome = true) :
    (w.unmemoised h.reachable.sound.wellFounded μ b' v' id).isSome = true := by
  have hwf := h.reachable.sound.wellFounded
  induction id using hwf.induction with
  | _ id ih =>
      rw [World.isSome_unmemoised_iff] at hanswer ⊢
      obtain ⟨c, hc, hsees⟩ := hanswer
      refine ⟨c, hc, (hstandard id .refl c hc).isSome_sees h.supply.coherent hv hv' hsame
        (fun _ => h.roots_mem_of_literal? hc) (fun child hchild => ?_) hsees⟩
      have hnests : w.Nests child id := Registry.mem_children hc hchild
      exact ih child hnests (hstandard.child hnests)

/-- The terminal values of equal values at hand are at hand and equal. -/
theorem Execution.same_terminal (hv : v ∈ valuesIn items) (hv' : v' ∈ valuesIn items)
    (hsame : v.same v' = true) :
    v.terminal ∈ valuesIn items ∧ v'.terminal ∈ valuesIn items ∧
      v.terminal.same v'.terminal = true :=
  have hcoherent := h.supply.coherent
  ⟨hcoherent.terminal_mem hv, hcoherent.terminal_mem hv',
    ((hcoherent.same_iff_layers hv hv').mp hsame).2⟩

/-- A handle of a standard registry that casts a value casts every equal value. -/
theorem Execution.isSome_cast (hv : v ∈ valuesIn items) (hv' : v' ∈ valuesIn items)
    (hsame : v.same v' = true) (hstandard : w.Standard id) (hc : c ∈ (w.registry id).cases)
    (hcast : (c.cast (Host.ofWorld w μ b) v).run.isSome = true) :
    (c.cast (Host.ofWorld w μ b') v').run.isSome = true := by
  obtain ⟨ht, ht', hsame⟩ := h.same_terminal hv hv' hsame
  rw [h.reachable.sound.cast_eq μ _ hc] at hcast ⊢
  refine (hstandard id .refl c hc).isSome_sees h.supply.coherent ht ht' hsame
    (fun _ => h.roots_mem_of_literal? hc) (fun child hchild => ?_) hcast
  exact h.isSome_unmemoised ht ht' hsame (hstandard.child (Registry.mem_children hc hchild))

theorem Execution.isSome_cast_eq (hv : v ∈ valuesIn items) (hv' : v' ∈ valuesIn items)
    (hsame : v.same v' = true) (hstandard : w.Standard id) (hc : c ∈ (w.registry id).cases) :
    (c.cast (Host.ofWorld w μ b) v).run.isSome = (c.cast (Host.ofWorld w μ b') v').run.isSome := by
  have hsame' : v'.same v = true := (v'.same_comm v).trans hsame
  exact Bool.eq_iff_iff.mpr ⟨h.isSome_cast hv hv' hsame hstandard hc,
    h.isSome_cast hv' hv hsame' hstandard hc⟩

/-- The path of first matches of a value is that of every equal value. -/
theorem Execution.firstMatches_of_same (hv : v ∈ valuesIn items) (hv' : v' ∈ valuesIn items)
    (hsame : v.same v' = true) (hstandard : w.Standard id) {path : List (RegistryId × Case C P)}
    (hpath : w.FirstMatches μ b v id path) : w.FirstMatches μ b' v' id path := by
  induction hpath with
  | last hfirst hc =>
      exact .last (hfirst.congr fun d hd => h.isSome_cast_eq hv hv' hsame hstandard hd) hc
  | nested hfirst hc _ ih =>
      exact .nested (hfirst.congr fun d hd => h.isSome_cast_eq hv hv' hsame hstandard hd) hc
        (ih (hstandard.child (Registry.mem_children hfirst.mem hc)))

/-- Two values at hand that are equal are discriminated alike by a registry that is standard.  It
wraps both or neither, in equal unions whose layers come from one path of first matches, so the same
case wins in each registry on it.  And each handle of the registry casts both or neither. -/
theorem Execution.equal_discriminated_alike (hv : v ∈ valuesIn items) (hv' : v' ∈ valuesIn items)
    (hequal : (v == v') = true) (hstandard : w.Standard id) (b b' : Nat) :
    let host := Host.ofWorld w μ
    ((((host b).wrapValue id v).run = none ∧ ((host b').wrapValue id v').run = none) ∨
      ∃ u u' path, ((host b).wrapValue id v).run = some u ∧
        ((host b').wrapValue id v').run = some u' ∧ u.tag = u'.tag ∧ u.same u' = true ∧
        w.FirstMatches μ b v id path ∧ w.FirstMatches μ b' v' id path ∧
        u.inner.height + 1 = path.length ∧ u'.inner.height + 1 = path.length) ∧
    ∀ c ∈ (w.registry id).cases,
      (c.cast (host b) v).run.isSome = (c.cast (host b') v').run.isSome := by
  intro host
  have hsound := h.reachable.sound
  have hsame' : v'.same v = true := (v'.same_comm v).trans hequal
  obtain ⟨ht, ht', hterminals⟩ := h.same_terminal hv hv' hequal
  obtain ⟨-, -, hterminals'⟩ := h.same_terminal hv' hv hsame'
  refine ⟨?_, fun c hc => h.isSome_cast_eq hv hv' hequal hstandard hc⟩
  rw [hsound.wrapValue_eq_unmemoised, hsound.wrapValue_eq_unmemoised]
  cases hanswer : w.unmemoised hsound.wellFounded μ b v.terminal id with
  | none =>
      refine .inl ⟨rfl, ?_⟩
      rw [← Option.not_isSome_iff_eq_none] at hanswer ⊢
      exact fun hsome => hanswer (h.isSome_unmemoised ht' ht hterminals' hstandard hsome)
  | some u =>
      obtain ⟨u', hanswer'⟩ := Option.isSome_iff_exists.mp
        (h.isSome_unmemoised ht ht' hterminals hstandard (Option.isSome_of_eq_some hanswer))
      obtain ⟨path, layers, hpath, hlength, hu⟩ := hsound.exists_firstMatches
        (μ.blind_singleton b v.terminal) (Set.mem_singleton b) (Set.mem_singleton b) hanswer
      obtain ⟨path', layers', hpath', hlength', hu'⟩ := hsound.exists_firstMatches
        (μ.blind_singleton b' v'.terminal) (Set.mem_singleton b') (Set.mem_singleton b') hanswer'
      have hmoved : w.FirstMatches μ b' v' id path :=
        h.firstMatches_of_same hv hv' hequal hstandard hpath
      obtain rfl := hmoved.unique hsound hpath'
      obtain rfl : layers = layers' := Nat.succ.inj (hlength.symm.trans hlength')
      refine .inr ⟨u, u', path, rfl, hanswer', ?_⟩
      rw [hu, hu', Value.height_layered, Value.height_layered, Value.height_terminal,
        Value.height_terminal, Nat.zero_add, ← hlength]
      exact ⟨rfl, Value.same_layered_of_same hterminals b b' layers, hpath, hmoved, rfl, rfl⟩

end Programs

/-! ## Two zeros -/

/-- A world with a registry whose case is the number zero, nested in another registry. -/
def World.zeros : World Empty Bool :=
  ([.create "Zeros" .matching ⟨"zeros"⟩, .create "Outer" .matching ⟨"outer"⟩,
    .register 0 "zero" (.literal (.ofScalar (.float64 .zero))),
    .register 1 "inner" (.nested 0 none)] :
      List (Operation Empty Bool)).foldl Operation.apply {}

/-- The world, written out. -/
theorem World.zeros_eq :
    zeros = {
      registries := [
        { label := "Zeros", flavor := .matching, tag := ⟨"zeros"⟩,
          cases := [⟨"Zeros", "zero", 0, ⟨"zeros"⟩, .literal (.ofScalar (.float64 .zero))⟩],
          places := (∅ : Std.TreeMap String Nat).insert "zero" 0 },
        { label := "Outer", flavor := .matching, tag := ⟨"outer"⟩,
          cases := [⟨"Outer", "inner", 0, ⟨"outer"⟩, .nested 0 none⟩],
          places := (∅ : Std.TreeMap String Nat).insert "inner" 0 }]
      wrappers := [⟨"outer"⟩, ⟨"zeros"⟩] } := by
  cbv

/-- A program declares the case with a zero that it has made, and stores both zeros. -/
theorem Execution.zeros :
    let v : Value := .scalar ⟨1, 0⟩ (.float64 .zero)
    let v' : Value := .scalar ⟨3, 0⟩ (.float64 .negativeZero)
    Execution World.constantMeaning World.zeros
      [.value v', .ofScalar (.float64 .negativeZero), .value v, .ofScalar (.float64 .zero)] 4 := by
  intro v v'
  have hcreated : Execution World.constantMeaning _ [] 0 :=
    .operate (.operate .start (.create "Zeros" .matching ⟨"zeros"⟩) trivial nofun)
      (.create "Outer" .matching ⟨"outer"⟩) trivial nofun
  have hliteral := (hcreated.make (.scalar (.float64 .zero))).operate
    (.register 0 "zero" (.literal (.ofScalar (.float64 .zero)))) nofun fun item hitem => by
      cases hitem
      exact .head _
  have hworld : Execution World.constantMeaning World.zeros [.ofScalar (.float64 .zero)] 1 := by
    refine hliteral.operate (.register 1 "inner" (.nested 0 none)) (fun child hchild => ?_) nofun
    cases hchild
    exact ⟨by cbv, by cbv⟩
  have hzero := hworld.make (.stored (.head _))
  have hnegative := hzero.make (.scalar (.float64 .negativeZero))
  exact hnegative.make (.stored (.head _))

/-- The two zeros are equal, though their bits are not.  The outer registry wraps both, by the
registry that it nests and the literal there. -/
theorem Execution.zeros_equal_discriminated_alike :
    let v : Value := .scalar ⟨1, 0⟩ (.float64 .zero)
    let v' : Value := .scalar ⟨3, 0⟩ (.float64 .negativeZero)
    let items : List Item :=
      [.value v', .ofScalar (.float64 .negativeZero), .value v, .ofScalar (.float64 .zero)]
    let host := Host.ofWorld World.zeros World.constantMeaning
    Execution World.constantMeaning World.zeros items 4 ∧ v ∈ valuesIn items ∧
      v' ∈ valuesIn items ∧ (v == v') = true ∧ World.zeros.Standard 1 ∧
      ∃ u' path, ((host 4).wrapValue 1 v).run = some ⟨⟨"outer"⟩, .layer ⟨4, 1⟩ v⟩ ∧
        ((host 5).wrapValue 1 v').run = some u' ∧ u'.tag = ⟨"outer"⟩ ∧
        (Union.mk ⟨"outer"⟩ (.layer ⟨4, 1⟩ v)).same u' = true ∧
        World.zeros.FirstMatches World.constantMeaning 4 v 1 path ∧
        World.zeros.FirstMatches World.constantMeaning 5 v' 1 path ∧ path.length = 2 := by
  intro v v' items host
  have hrun : Execution World.constantMeaning World.zeros items 4 := Execution.zeros
  have hv : v ∈ valuesIn items := mem_valuesIn (.tail _ (.tail _ (.head _))) v (.head _)
  have hv' : v' ∈ valuesIn items := mem_valuesIn (.head _) v' (.head _)
  have hequal : (v == v') = true := by decide +kernel
  have hstandard : World.zeros.Standard 1 := by
    intro below _ c hc
    rw [World.zeros_eq] at hc
    rcases below with _ | _ | below
    · cases List.mem_singleton.mp hc
      exact .literal _
    · cases List.mem_singleton.mp hc
      exact .nested 0
    · cases hc
  have hwrap : ((host 4).wrapValue 1 v).run = some ⟨⟨"outer"⟩, .layer ⟨4, 1⟩ v⟩ := by
    unfold host
    rw [World.zeros_eq]
    rfl
  obtain ⟨(⟨hnone, -⟩ | ⟨u, u', path, hu, hu', htag, hsame, hpath, hpath', hlength, -⟩), -⟩ :=
    hrun.equal_discriminated_alike hv hv' hequal hstandard 4 5
  · rw [hwrap] at hnone
    cases hnone
  · obtain rfl := Option.some.inj (hwrap.symm.trans hu)
    exact ⟨hrun, hv, hv', hequal, hstandard, u', path, hwrap, hu', htag.symm, hsame, hpath, hpath',
      hlength.symm⟩

end CaseUnion
