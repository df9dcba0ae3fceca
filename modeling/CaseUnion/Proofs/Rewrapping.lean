import CaseUnion.Proofs.Execution

/-!
# Wrapping again

Every call strips the layers of what it is given before it looks at it.  So two values with one
terminal value are discriminated alike, however many layers are around it and wherever they come
from: the calls are the same programs, for every host (`Host.wrapValue_congr`, `Case.cast_congr`,
`Case.wrapValue_congr`, `Host.which_congr`).  Wrapping what was wrapped already therefore gives what
wrapping the value itself gives.

The layers of the answer come from the *path of first matches* alone (`World.FirstMatches`).  At
each registry on it stands the first case whose handle casts the value.  A nested case leads on to
its registry, and any other case ends the path.  There is one path, no registry is on it twice, and
the answer has one layer for each registry on it.
-/

namespace CaseUnion

open Relation (ReflTransGen)

variable {C P : Type}

/-! ## Calls see the terminal value -/

section Calls

variable {m : Type → Type} [Monad m] (host : Host C P m) {v v' : Value}

theorem Host.wrapValue_congr (id : RegistryId) (h : v'.terminal = v.terminal) :
    host.wrapValue id v' = host.wrapValue id v := by
  simp only [wrapValue, walk, h]

theorem Case.cast_congr (c : Case C P) (h : v'.terminal = v.terminal) :
    c.cast host v' = c.cast host v := by
  simp only [cast, Host.walk, h]

theorem Case.wrapValue_congr (c : Case C P) (h : v'.terminal = v.terminal) :
    c.wrapValue host v' = c.wrapValue host v := by
  simp only [wrapValue, h]

theorem Host.which_congr (id : RegistryId) {u u' : Union} (h : u'.terminal = u.terminal) :
    host.which id u' = host.which id u := by
  have hinner : u'.inner.terminal = u.inner.terminal := h
  simp only [which, walk, Union.terminal, hinner]

end Calls

/-- An item is a value, a layer or a union of a wrapper type, and has a given terminal value. -/
def World.Carries (w : World C P) (terminal : Value) : Item → Prop
  | .datum _ => False
  | .union u => u.tag ∈ w.wrappers ∧ u.terminal = terminal
  | .value v | .layer v => v.terminal = terminal

/-- What is stored for such an item has the terminal value. -/
theorem World.Carries.terminal_ofItem {w : World C P} {terminal : Value} {item : Item}
    (h : w.Carries terminal item) (block : Nat) :
    (Value.ofItem w.wrappers block item).terminal = terminal := by
  cases item with
  | datum d => exact h.elim
  | union u =>
      rw [Value.ofItem, if_pos h.1]
      exact h.2
  | value v => exact h
  | layer v => exact h

namespace World

variable {w : World C P} {μ : Meaning C P} {blocks : Set Nat} {block asking testing : Nat}
  {v v' : Value} {id : RegistryId}

/-! ## The path of first matches -/

/-- The path of first matches of a value from a registry, where handles cast in a block. -/
inductive FirstMatches (w : World C P) (μ : Meaning C P) (block : Nat) (v : Value) :
    RegistryId → List (RegistryId × Case C P) → Prop
  | last {id : RegistryId} {c : Case C P}
      (hfirst : (w.registry id).First (fun c => (c.cast (Host.ofWorld w μ block) v).run.isSome) c)
      (hc : c.recogniser.child? = none) : FirstMatches w μ block v id [(id, c)]
  | nested {id child : RegistryId} {c : Case C P} {path : List (RegistryId × Case C P)}
      (hfirst : (w.registry id).First (fun c => (c.cast (Host.ofWorld w μ block) v).run.isSome) c)
      (hc : c.recogniser.child? = some child) (h : FirstMatches w μ block v child path) :
      FirstMatches w μ block v id ((id, c) :: path)

/-- A path begins with the first case of the registry that it starts from. -/
theorem FirstMatches.exists_first {path : List (RegistryId × Case C P)}
    (h : w.FirstMatches μ block v id path) : ∃ c, (w.registry id).First
      (fun c => (c.cast (Host.ofWorld w μ block) v).run.isSome) c := by
  cases h with
  | last hfirst => exact ⟨_, hfirst⟩
  | nested hfirst => exact ⟨_, hfirst⟩

/-- There is one path, since there is one first case. -/
theorem FirstMatches.unique (hw : w.Sound) {path path' : List (RegistryId × Case C P)}
    (h : w.FirstMatches μ block v id path) (h' : w.FirstMatches μ block v id path') :
    path = path' := by
  induction h generalizing path' with
  | last hfirst hc =>
      cases h' with
      | last hfirst' => rw [hfirst.unique (hw.ordered _) hfirst']
      | nested hfirst' hc' =>
          rw [← hfirst.unique (hw.ordered _) hfirst', hc] at hc'
          cases hc'
  | nested hfirst hc _ ih =>
      cases h' with
      | last hfirst' hc' =>
          rw [← hfirst.unique (hw.ordered _) hfirst', hc] at hc'
          cases hc'
      | nested hfirst' hc' h' =>
          obtain rfl := hfirst.unique (hw.ordered _) hfirst'
          obtain rfl := Option.some.inj (hc.symm.trans hc')
          rw [ih h']

/-- Every registry on the path is the one it starts from or nested in it at some depth. -/
theorem FirstMatches.nested_of_mem {path : List (RegistryId × Case C P)}
    (h : w.FirstMatches μ block v id path) :
    ∀ step ∈ path, ReflTransGen w.Nests step.1 id := by
  induction h with
  | last =>
      intro step hstep
      rw [List.mem_singleton.mp hstep]
  | nested hfirst hc _ ih =>
      intro step hstep
      rcases List.mem_cons.mp hstep with rfl | hstep
      · exact .refl
      · exact (ih step hstep).tail (Registry.mem_children hfirst.mem hc)

/-- No registry is on the path twice, since none contains itself. -/
theorem FirstMatches.nodup (hw : w.Sound) {path : List (RegistryId × Case C P)}
    (h : w.FirstMatches μ block v id path) : (path.map Prod.fst).Nodup := by
  induction h with
  | last => exact List.nodup_singleton _
  | @nested id child c path hfirst hc h ih =>
      refine List.nodup_cons.mpr ⟨fun hid => ?_, ih⟩
      obtain ⟨step, hstep, rfl⟩ := List.mem_map.mp hid
      exact Nesting.not_cycle hw.wellFounded _
        (.tail' (h.nested_of_mem step hstep) (Registry.mem_children hfirst.mem hc))

/-- A registry that answers has a path of first matches, and its answer has a layer for each
registry on it. -/
theorem Sound.exists_firstMatches (hw : w.Sound) (hblind : μ.Blind blocks v.terminal)
    (hasking : asking ∈ blocks) (htesting : testing ∈ blocks) {u : Union}
    (h : w.unmemoised hw.wellFounded μ asking v.terminal id = some u) :
    ∃ path layers, w.FirstMatches μ testing v id path ∧ path.length = layers + 1 ∧
      u = ⟨(w.registry id).tag, v.terminal.layered asking layers⟩ := by
  induction id using hw.wellFounded.induction generalizing u with
  | _ id ih =>
      obtain ⟨c, item, hunder⟩ := hw.exists_wrapsUnder_of_unmemoised h
      have hfind := congrArg (Option.map Prod.fst) hunder.first
      rw [Registry.map_firstSeen, hw.find?_sees_eq hblind hasking (fun _ => htesting)] at hfind
      have hfirst := (hw.ordered id).first_of_find? hfind
      cases hrecogniser : c.recogniser with
      | nested child guard =>
          have hsees := hunder.sees
          rw [hrecogniser] at hsees
          obtain ⟨inner, hanswer, rfl, -⟩ := Recogniser.of_nested_sees hsees
          have hchild : c.recogniser.child? = some child := by rw [hrecogniser]; rfl
          obtain ⟨path, layers, hpath, hlength, rfl⟩ :=
            ih child (Registry.mem_children hunder.mem hchild) hanswer
          refine ⟨(id, c) :: path, layers + 1, .nested hfirst hchild hpath, by simp [hlength], ?_⟩
          rw [hunder.union, hrecogniser]
          rfl
      | _ =>
          refine ⟨[(id, c)], 0, .last hfirst (by rw [hrecogniser]; rfl), rfl, ?_⟩
          rw [hunder.union, hrecogniser]
          rfl

/-- A registry answers if and only if there is a path. -/
theorem Sound.isSome_unmemoised_iff_firstMatches (hw : w.Sound) (hblind : μ.Blind blocks v.terminal)
    (hasking : asking ∈ blocks) (htesting : testing ∈ blocks) :
    (w.unmemoised hw.wellFounded μ asking v.terminal id).isSome = true
      ↔ ∃ path, w.FirstMatches μ testing v id path := by
  constructor
  · intro hsome
    obtain ⟨u, hanswer⟩ := Option.isSome_iff_exists.mp hsome
    obtain ⟨path, -, hpath, -⟩ := hw.exists_firstMatches hblind hasking htesting hanswer
    exact ⟨path, hpath⟩
  · rintro ⟨path, hpath⟩
    obtain ⟨c, hfirst⟩ := hpath.exists_first
    have hcast := hfirst.accepted
    rw [hw.cast_eq μ testing hfirst.mem,
      isSome_sees_eq hw.wellFounded hblind htesting hasking c.recogniser] at hcast
    exact (isSome_unmemoised_iff hw.wellFounded).mpr ⟨c, hfirst.mem, hcast⟩

/-! ## Two calls -/

/-- A registry and its handles treat two values alike, with calls in two blocks. -/
structure TreatsAlike (w : World C P) (μ : Meaning C P) (b b' : Nat) (id : RegistryId)
    (v v' : Value) : Prop where
  wrapValue : Outlined b b' v.terminal ((Host.ofWorld w μ b).wrapValue id v).run
    ((Host.ofWorld w μ b').wrapValue id v').run
  cast : ∀ c ∈ (w.registry id).cases, Option.Rel (Item.Alike b b' v.terminal)
    (c.cast (Host.ofWorld w μ b) v).run (c.cast (Host.ofWorld w μ b') v').run
  handleWrapValue : ∀ c ∈ (w.registry id).cases,
    (c.wrapValue (Host.ofWorld w μ b') v').run = (c.wrapValue (Host.ofWorld w μ b) v).run
  which : ∀ u u' : Union, u.terminal = v.terminal → u'.terminal = v'.terminal →
    ((Host.ofWorld w μ b').which id u').run = ((Host.ofWorld w μ b).which id u).run

variable {b b' : Nat}

/-- The handle of a custom cast makes one union in all blocks, since it makes no layer. -/
theorem Sound.run_wrapValue_eq (hw : w.Sound) {c : Case C P} (hc : c ∈ (w.registry id).cases)
    (b b' : Nat) (v : Value) :
    (c.wrapValue (Host.ofWorld w μ b') v).run = (c.wrapValue (Host.ofWorld w μ b) v).run := by
  cases hrecogniser : c.recogniser with
  | byCast cast guard =>
      have hcast : (c.cast (Host.ofWorld w μ b') v.terminal).run
          = (c.cast (Host.ofWorld w μ b) v.terminal).run := by
        rw [hw.cast_eq μ b' hc, hw.cast_eq μ b hc, hrecogniser]
        exact Recogniser.sees_congr fun child hchild => by cases hchild
      ext u
      rw [Case.run_wrapValue_byCast_iff hrecogniser, Case.run_wrapValue_byCast_iff hrecogniser,
        hcast]
  | _ => simp only [Case.wrapValue, hrecogniser]

/-- Values with one terminal value are treated alike. -/
theorem Sound.treatsAlike (hw : w.Sound) (hblind : μ.Blind blocks v.terminal) (hb : b ∈ blocks)
    (hb' : b' ∈ blocks) (hterminal : v'.terminal = v.terminal) (id : RegistryId) :
    w.TreatsAlike μ b b' id v v' where
  wrapValue := by
    rw [hw.wrapValue_eq_unmemoised, hw.wrapValue_eq_unmemoised, hterminal]
    exact outlined_unmemoised hw.wellFounded hblind hb hb' id
  cast c hc := by
    rw [hw.cast_eq μ b hc, hw.cast_eq μ b' hc, hterminal]
    exact c.recogniser.alike_sees hblind hb hb' fun child _ =>
      outlined_unmemoised hw.wellFounded hblind hb hb' child
  handleWrapValue c hc := by
    rw [c.wrapValue_congr _ hterminal]
    exact hw.run_wrapValue_eq hc b b' v
  which u u' hu hu' := by
    rw [hw.which_eq, hw.which_eq, hu, hu', hterminal]
    refine congrArg (Option.map Case.info) (List.find?_congr fun c _ => ?_)
    exact isSome_sees_eq hw.wellFounded hblind hb' hb c.recogniser

/-- Wrapping an item that has a terminal value is wrapping any value that has it. -/
theorem Carries.outlined_wrap (hw : w.Sound) (hblind : μ.Blind blocks v.terminal) (hb : b ∈ blocks)
    (hb' : b' ∈ blocks) {item : Item} (hitem : w.Carries v.terminal item) (id : RegistryId) :
    Outlined b b' v.terminal ((Host.ofWorld w μ b).wrapValue id v).run
      ((Host.ofWorld w μ b').wrap id item).run :=
  (hw.treatsAlike hblind hb hb' (hitem.terminal_ofItem b') id).wrapValue

/-- Discrimination sees the terminal value alone.  The calls of every host about two values with one
terminal value are the same programs.  Where casts and predicates are plain functions, blind to the
blocks of the calls, calls in two blocks treat the two values alike, and wrapping any item that has
the terminal value, by any registry, is wrapping the value.  A registry wraps the value if there is
a path of first matches.  What it wraps the value in is such an item, so wrapping it again makes an
equal union.  Its terminal value is that of the value, and it has one layer for each registry on the
path. -/
theorem Reachable.rewrapping_idempotent (hw : w.Reachable) (μ : Meaning C P)
    (hterminal : v'.terminal = v.terminal) {blocks : Set Nat} (hblind : μ.Blind blocks v.terminal)
    (hb : b ∈ blocks) (hb' : b' ∈ blocks) (id : RegistryId) :
    let host := Host.ofWorld w μ
    (∀ (m : Type → Type) [Monad m] (host : Host C P m),
      host.wrapValue id v' = host.wrapValue id v ∧
      (∀ c : Case C P, c.cast host v' = c.cast host v ∧
        c.wrapValue host v' = c.wrapValue host v) ∧
      ∀ u u' : Union, u.terminal = v.terminal → u'.terminal = v'.terminal →
        host.which id u' = host.which id u) ∧
    w.TreatsAlike μ b b' id v v' ∧
    (∀ other item, w.Carries v.terminal item →
      Outlined b b' v.terminal ((host b).wrapValue other v).run ((host b').wrap other item).run) ∧
    (((host b).wrapValue id v).run.isSome = true ↔ ∃ path, w.FirstMatches μ b' v id path) ∧
    ∀ u, ((host b).wrapValue id v).run = some u →
      w.Carries v.terminal (.union u) ∧
      Rebuilds ((host b').wrap id (.union u)) u ∧
      ∃ path, (∀ path', w.FirstMatches μ b' v id path' ↔ path' = path) ∧
        (path.map Prod.fst).Nodup ∧ u.inner.height + 1 = path.length := by
  intro host
  have hsound := hw.sound
  refine ⟨fun m _ host => ⟨host.wrapValue_congr id hterminal, fun c => ⟨c.cast_congr host hterminal,
    c.wrapValue_congr host hterminal⟩, fun u u' hu hu' => ?_⟩,
    hsound.treatsAlike hblind hb hb' hterminal id,
    fun other item hitem => hitem.outlined_wrap hsound hblind hb hb' other, ?_, fun u hwrap => ?_⟩
  · exact host.which_congr id (hu'.trans (hterminal.trans hu.symm))
  · rw [hsound.wrapValue_eq_unmemoised]
    exact hsound.isSome_unmemoised_iff_firstMatches hblind hb hb'
  · have hanswer := hwrap
    rw [hsound.wrapValue_eq_unmemoised] at hanswer
    obtain ⟨path, layers, hpath, hlength, hu⟩ :=
      hsound.exists_firstMatches hblind hb hb' hanswer
    have hcarries : w.Carries v.terminal (.union u) := by
      refine ⟨hw.tag_mem_of_unmemoised hanswer, ?_⟩
      rw [Union.terminal, hu, Value.terminal_layered, Value.terminal_terminal]
    refine ⟨hcarries, ?_, path, fun path' => ?_, hpath.nodup hsound, ?_⟩
    · obtain ⟨outline, houtline, houtline'⟩ :=
        hcarries.outlined_wrap hsound hblind hb hb' id
      obtain ⟨outline, rfl, rfl⟩ := Option.map_eq_some_iff.mp (houtline.symm.trans hwrap)
      exact ⟨_, houtline', rfl, Value.same_layered ..⟩
    · exact ⟨fun h => h.unique hsound hpath, fun h => h ▸ hpath⟩
    · rw [hu, Value.height_layered, Value.height_terminal, hlength, Nat.zero_add]

/-- A number behind a layer is wrapped at the top of the diamond.  The union has three layers, for
the registries at the top, on the right and at the bottom.  The registry on the right, which the one
at the top nests, wraps the union as it wraps the number. -/
theorem diamond_rewrapping_idempotent :
    let plain : Value := .scalar ⟨0, 0⟩ (.int32 5)
    let v : Value := .layer ⟨6, 1⟩ plain
    let host := Host.ofWorld diamond constantMeaning
    let u : Union := ⟨⟨"top"⟩, .layer ⟨7, 2⟩ (.layer ⟨7, 1⟩ plain)⟩
    let path : List (RegistryId × Case Empty Bool) :=
      [(3, ⟨"Top", "right", 1, ⟨"top"⟩, .nested 2 none⟩),
        (2, ⟨"Right", "plain", 0, ⟨"right"⟩, .nested 0 none⟩),
        (0, ⟨"Leaf", "int", 0, ⟨"leaf"⟩, .ofType (.datum .int32) none⟩)]
    plain.terminal = v.terminal ∧ constantMeaning.Blind Set.univ v.terminal ∧
      diamond.TreatsAlike constantMeaning 7 8 3 v plain ∧
      ((host 7).wrapValue 3 v).run = some u ∧ Rebuilds ((host 8).wrap 3 (.union u)) u ∧
      ((host 7).wrapValue 2 v).run = some ⟨⟨"right"⟩, .layer ⟨7, 1⟩ plain⟩ ∧
      Outlined 7 8 v.terminal ((host 7).wrapValue 2 v).run ((host 8).wrap 2 (.union u)).run ∧
      diamond.FirstMatches constantMeaning 8 v 3 path ∧ u.inner.height + 1 = path.length := by
  intro plain v host u path
  have hterminal : plain.terminal = v.terminal := rfl
  have hblind := constantMeaning_blind Set.univ v.terminal
  have hwrap : ((host 7).wrapValue 3 v).run = some u := diamond_wrapValue_top 7 rfl
  have hright : ((host 7).wrapValue 2 v).run = some ⟨⟨"right"⟩, .layer ⟨7, 1⟩ plain⟩ :=
    diamond_wrapValue_right 7 rfl
  have hfirst : ∀ id c,
      ((diamond.registry id).cases.find? fun c => (c.cast (host 8) v).run.isSome) = some c →
        (diamond.registry id).First (fun c => (c.cast (host 8) v).run.isSome) c :=
    fun id c hfind => (diamond_reachable.sound.ordered id).first_of_find? hfind
  have hpath : diamond.FirstMatches constantMeaning 8 v 3 path := by
    refine .nested (hfirst 3 _ ?_) rfl (.nested (hfirst 2 _ ?_) rfl (.last (hfirst 0 _ ?_) rfl))
    all_goals
      unfold host
      rw [diamond_eq]
      rfl
  obtain ⟨-, halike, hitems, -, hunion⟩ := diamond_reachable.rewrapping_idempotent constantMeaning
    hterminal hblind (Set.mem_univ 7) (Set.mem_univ 8) 3
  obtain ⟨hcarries, hrebuilds, path', hunique, -, hlength⟩ := hunion u hwrap
  obtain rfl := (hunique path).mp hpath
  exact ⟨hterminal, hblind, halike, hwrap, hrebuilds, hright, hitems 2 _ hcarries, hpath, hlength⟩

end World

end CaseUnion
