import CaseUnion.Proofs.Memoisation
import Mathlib.Data.List.Find
import Mathlib.Data.List.Nodup

/-!
# A registry and its handles agree

A registry tells the case of a union by one walk over its cases that stops at the first.  A handle
tests its case alone, in a walk of its own.  Both give one verdict on membership
(`Reachable.membership_agrees`), because neither the memo nor the order plays a part in what a case
sees.

Each call puts the layers that it makes into a block of its own, so a predicate on a child union is
given layers that differ in their addresses from call to call.  What is asked of predicates is that
they are blind to that: on unions with the same tag and as many layers around the same terminal
value, they do not tell the blocks of the calls apart.  Nothing is asked of them where all calls
have one block (`Meaning.blind_singleton`).  Under this assumption the evaluations of a registry in
two blocks have the same outline, which is the tag of the answer and the number of its layers.
-/

namespace CaseUnion

variable {C P : Type}

/-! ## Layers in a block -/

/-- A value with layers around it, all in one block. -/
def Value.layered (block : Nat) (v : Value) : Nat → Value
  | 0 => v
  | layers + 1 => (v.layered block layers).boxed block

@[simp] theorem Value.terminal_layered (block : Nat) (v : Value) (layers : Nat) :
    (v.layered block layers).terminal = v.terminal := by
  induction layers with
  | zero => rfl
  | succ layers ih => exact ih

@[simp] theorem Value.height_layered (block : Nat) (v : Value) (layers : Nat) :
    (v.layered block layers).height = v.height + layers := by
  induction layers with
  | zero => rfl
  | succ layers ih => exact congrArg (· + 1) ih

/-- What remains of an answer when the block of its layers is forgotten. -/
structure Outline where
  tag : Tag
  layers : Nat

/-- The union of an outline around a terminal value, with the layers in a block. -/
def Outline.union (block : Nat) (terminal : Value) (outline : Outline) : Union :=
  ⟨outline.tag, terminal.layered block outline.layers⟩

@[simp] theorem Outline.terminal_union (block : Nat) (terminal : Value) (outline : Outline) :
    (outline.union block terminal).terminal = terminal.terminal :=
  terminal.terminal_layered block outline.layers

/-- Predicates do not tell in which of some blocks the layers around a terminal value lie. -/
def Meaning.Blind (μ : Meaning C P) (blocks : Set Nat) (terminal : Value) : Prop :=
  ∀ b ∈ blocks, ∀ b' ∈ blocks, ∀ (predicate : P) (outline : Outline),
    μ.holds predicate (.union (outline.union b terminal))
      = μ.holds predicate (.union (outline.union b' terminal))

/-- In one block there is nothing to tell. -/
theorem Meaning.blind_singleton (μ : Meaning C P) (block : Nat) (terminal : Value) :
    μ.Blind {block} terminal := by
  rintro b rfl b' rfl predicate outline
  rfl

/-- Predicates that hold of everything or of nothing tell no blocks apart. -/
theorem World.constantMeaning_blind (blocks : Set Nat) (terminal : Value) :
    constantMeaning.Blind blocks terminal := fun _ _ _ _ _ _ => rfl

/-- A guard does not tell the blocks apart either. -/
theorem Meaning.Blind.guards_eq {μ : Meaning C P} {blocks : Set Nat} {terminal : Value} {b b' : Nat}
    (hblind : μ.Blind blocks terminal) (hb : b ∈ blocks) (hb' : b' ∈ blocks) (guard : Option P)
    (outline : Outline) :
    μ.guards guard (.union (outline.union b terminal))
      = μ.guards guard (.union (outline.union b' terminal)) := by
  cases guard with
  | none => rfl
  | some predicate => exact hblind b hb b' hb' predicate outline

/-! ## One evaluation in two blocks -/

section Blocks

variable {μ : Meaning C P} {blocks : Set Nat} {terminal : Value} {b b' : Nat}

/-- Two answers have one outline, with layers in two blocks. -/
def Outlined (b b' : Nat) (terminal : Value) (answer answer' : Option Union) : Prop :=
  ∃ outline : Option Outline,
    answer = outline.map (Outline.union b terminal) ∧
      answer' = outline.map (Outline.union b' terminal)

/-- What a case keeps has the same number of layers in two blocks. -/
theorem Recogniser.exists_layers (hblind : μ.Blind blocks terminal) (hb : b ∈ blocks)
    (hb' : b' ∈ blocks) {answers answers' : RegistryId → Option Union} (recogniser : Recogniser C P)
    (hanswers : ∀ child, recogniser.child? = some child →
      Outlined b b' terminal (answers child) (answers' child)) :
    ∃ layers : Option Nat,
      recogniser.keeps μ answers b terminal = layers.map (terminal.layered b) ∧
        recogniser.keeps μ answers' b' terminal = layers.map (terminal.layered b') := by
  cases hrecogniser : recogniser with
  | nested child guard =>
      obtain ⟨outline, houtline, houtline'⟩ := hanswers child (by rw [hrecogniser]; rfl)
      cases outline with
      | none => exact ⟨none, by simp [keeps, houtline], by simp [keeps, houtline']⟩
      | some outline =>
          have hguard := hblind.guards_eq hb hb' guard outline
          refine ⟨if μ.guards guard (.union (outline.union b terminal)) then
            some (outline.layers + 1) else none, ?_, ?_⟩
          · simp only [keeps, houtline, Option.map_some, Option.filter_some]
            split <;> rfl
          · simp only [keeps, houtline', Option.map_some, Option.filter_some, hguard]
            split <;> rfl
  | _ =>
      refine ⟨(recogniser.sees μ answers terminal).map fun _ => 0, ?_, ?_⟩ <;>
        rw [hrecogniser, Option.map_map] <;> rfl

/-- What the first case that keeps something keeps has the same number of layers in two blocks. -/
theorem exists_layers_of_cases (hblind : μ.Blind blocks terminal) (hb : b ∈ blocks)
    (hb' : b' ∈ blocks) {answers answers' : RegistryId → Option Union} {cs : List (Case C P)}
    (hanswers : ∀ c ∈ cs, ∀ child, c.recogniser.child? = some child →
      Outlined b b' terminal (answers child) (answers' child)) :
    ∃ layers : Option Nat,
      (cs.findSome? fun c => c.recogniser.keeps μ answers b terminal)
          = layers.map (terminal.layered b) ∧
        (cs.findSome? fun c => c.recogniser.keeps μ answers' b' terminal)
          = layers.map (terminal.layered b') := by
  induction cs with
  | nil => exact ⟨none, rfl, rfl⟩
  | cons c rest ih =>
      obtain ⟨layers, hkeeps, hkeeps'⟩ := Recogniser.exists_layers hblind hb hb' c.recogniser
        (hanswers c (List.mem_cons_self ..))
      rw [List.findSome?_cons, List.findSome?_cons, hkeeps, hkeeps']
      cases layers with
      | none => exact ih fun d hd => hanswers d (List.mem_cons_of_mem _ hd)
      | some layers => exact ⟨some layers, rfl, rfl⟩

/-- The answer of a registry has the same outline in two blocks. -/
theorem Registry.outlined_answer (hblind : μ.Blind blocks terminal) (hb : b ∈ blocks)
    (hb' : b' ∈ blocks) {answers answers' : RegistryId → Option Union} {r : Registry C P}
    (hanswers : ∀ child ∈ r.children, Outlined b b' terminal (answers child) (answers' child)) :
    Outlined b b' terminal (r.answer μ answers b terminal) (r.answer μ answers' b' terminal) := by
  obtain ⟨layers, hfirst, hfirst'⟩ := exists_layers_of_cases hblind hb hb'
    fun c (hc : c ∈ r.cases) child hchild => hanswers child (mem_children hc hchild)
  refine ⟨layers.map (Outline.mk r.tag), ?_, ?_⟩
  · rw [answer, hfirst, Option.map_map, Option.map_map]
    rfl
  · rw [answer, hfirst', Option.map_map, Option.map_map]
    rfl

variable {w : World C P} (h : WellFounded w.Nests)

/-- Two evaluations of a registry in different blocks have the same outline. -/
theorem World.outlined_unmemoised (hblind : μ.Blind blocks terminal) (hb : b ∈ blocks)
    (hb' : b' ∈ blocks) (id : RegistryId) :
    Outlined b b' terminal (w.unmemoised h μ b terminal id) (w.unmemoised h μ b' terminal id) := by
  induction id using h.induction with
  | _ id ih =>
      rw [unmemoised_eq, unmemoised_eq]
      exact Registry.outlined_answer hblind hb hb' ih

/-- What a registry answers in one block it answers in another one, with the layers there. -/
theorem World.exists_outline_in (hblind : μ.Blind blocks terminal) (hb : b ∈ blocks)
    (hb' : b' ∈ blocks) {id : RegistryId} {u : Union}
    (hu : w.unmemoised h μ b terminal id = some u) :
    ∃ outline : Outline, u = outline.union b terminal ∧
      w.unmemoised h μ b' terminal id = some (outline.union b' terminal) := by
  obtain ⟨outline, houtline, houtline'⟩ := outlined_unmemoised h hblind hb hb' id
  obtain ⟨outline, rfl, rfl⟩ := Option.map_eq_some_iff.mp (houtline.symm.trans hu)
  exact ⟨outline, rfl, houtline'⟩

/-- An answer has its layers around the terminal value, all in the block of the evaluation. -/
theorem World.exists_outline_of_unmemoised {id : RegistryId} {u : Union}
    (hu : w.unmemoised h μ b terminal id = some u) :
    ∃ outline : Outline, u = outline.union b terminal := by
  obtain ⟨outline, rfl, -⟩ := exists_outline_in h (μ.blind_singleton b terminal)
    (Set.mem_singleton b) (Set.mem_singleton b) hu
  exact ⟨outline, rfl⟩

/-- Whether a case sees an item does not depend on the block. -/
theorem World.isSome_sees_eq (hblind : μ.Blind blocks terminal) (hb : b ∈ blocks)
    (hb' : b' ∈ blocks) (recogniser : Recogniser C P) :
    (recogniser.sees μ (w.unmemoised h μ b terminal) terminal).isSome
      = (recogniser.sees μ (w.unmemoised h μ b' terminal) terminal).isSome := by
  obtain ⟨layers, hkeeps, hkeeps'⟩ := Recogniser.exists_layers hblind hb hb' recogniser
    fun child _ => outlined_unmemoised h hblind hb hb' child
  have hsome := congrArg Option.isSome hkeeps
  have hsome' := congrArg Option.isSome hkeeps'
  rw [Recogniser.keeps_eq, Option.isSome_map, Option.isSome_map] at hsome hsome'
  rw [hsome, hsome']

end Blocks

/-! ## The first case -/

namespace Registry

/-- The accepting case of a registry with the least ordinal. -/
structure First (r : Registry C P) (accepts : Case C P → Bool) (c : Case C P) : Prop where
  mem : c ∈ r.cases
  accepted : accepts c = true
  least : ∀ d ∈ r.cases, accepts d = true → c.ordinal ≤ d.ordinal

variable {r : Registry C P} {accepts : Case C P → Bool} {c d : Case C P}

/-- The search in the order of declaration finds the first case. -/
theorem Ordered.first_of_find? (hr : r.Ordered) (hfind : r.cases.find? accepts = some c) :
    r.First accepts c := by
  obtain ⟨haccepts, earlier, later, hcases, hearlier⟩ := List.find?_eq_some_iff_append.mp hfind
  refine ⟨List.mem_of_find?_eq_some hfind, haccepts, fun d hd hother => ?_⟩
  rcases hr.mem_earlier_or_le hcases hd with hold | hle
  · exact absurd hother (by simpa using hearlier d hold)
  · exact hle

/-- There is one first case. -/
theorem First.unique (hr : r.Ordered) (hc : r.First accepts c) (hd : r.First accepts d) :
    c = d := by
  have hordinal : c.ordinal = d.ordinal :=
    Nat.le_antisymm (hc.least d hd.mem hd.accepted) (hd.least c hc.mem hc.accepted)
  exact List.inj_on_of_nodup_map hr.nodup_ordinals hc.mem hd.mem hordinal

/-- The first case is the same where the cases of the registry are accepted alike. -/
theorem First.congr {accepts' : Case C P → Bool} (hc : r.First accepts c)
    (h : ∀ d ∈ r.cases, accepts d = accepts' d) : r.First accepts' c where
  mem := hc.mem
  accepted := (h c hc.mem).symm.trans hc.accepted
  least d hd hd' := hc.least d hd ((h d hd).trans hd')

theorem Ordered.find?_eq_some_iff (hr : r.Ordered) :
    r.cases.find? accepts = some c ↔ r.First accepts c := by
  refine ⟨hr.first_of_find?, fun hfirst => ?_⟩
  obtain ⟨d, hfind⟩ := Option.isSome_iff_exists.mp
    (List.find?_isSome.mpr ⟨c, hfirst.mem, hfirst.accepted⟩)
  rw [hfind, (hr.first_of_find? hfind).unique hr hfirst]

end Registry

/-! ## Registries and handles -/

namespace World

section Sound

variable {w : World C P} {μ : Meaning C P} {blocks : Set Nat} {block : Nat}
  {blockOf : Case C P → Nat} {id : RegistryId}

/-- The first case that sees an item in one walk is the first whose handle casts the value, each
handle in a walk of its own. -/
theorem Sound.find?_sees_eq (hw : w.Sound) {v : Value} (hblind : μ.Blind blocks v.terminal)
    (hblock : block ∈ blocks) (hblockOf : ∀ c, blockOf c ∈ blocks) (id : RegistryId) :
    ((w.registry id).cases.find? fun c =>
        (c.recogniser.sees μ (w.unmemoised hw.wellFounded μ block v.terminal) v.terminal).isSome)
      = (w.registry id).cases.find? fun c =>
          (c.cast (Host.ofWorld w μ (blockOf c)) v).run.isSome := by
  refine List.find?_congr fun c hc => ?_
  rw [hw.cast_eq μ (blockOf c) hc v]
  exact isSome_sees_eq hw.wellFounded hblind hblock (hblockOf c) c.recogniser

/-- A registry tells the first case whose handle accepts the union. -/
theorem Sound.which_eq_find?_accepts (hw : w.Sound) {u : Union}
    (hblind : μ.Blind blocks u.terminal) (hblock : block ∈ blocks)
    (hblockOf : ∀ c, blockOf c ∈ blocks) (id : RegistryId) :
    ((Host.ofWorld w μ block).which id u).run
      = ((w.registry id).cases.find? fun c =>
          (c.accepts (Host.ofWorld w μ (blockOf c)) u).run).map Case.info := by
  have hterminal : u.terminal.terminal = u.terminal := Value.terminal_terminal u.inner
  have hfind := hw.find?_sees_eq (v := u.terminal) (hterminal.symm ▸ hblind) hblock hblockOf id
  rw [hterminal] at hfind
  rw [hw.which_eq, hfind]
  rfl

/-- A union that has the terminal value of a value satisfies a case if the case casts the value. -/
theorem accepts_eq_isSome_cast (host : Host C P Id) (c : Case C P) {u : Union} {v : Value}
    (hterminal : u.terminal = v.terminal) :
    (c.accepts host u).run = (c.cast host v).run.isSome := by
  have hpeeled : u.terminal.terminal = v.terminal := by
    rw [hterminal, Value.terminal_terminal]
  have hcast : c.cast host u.terminal = c.cast host v := by
    simp only [Case.cast, Host.walk, hpeeled]
  rw [← hcast]
  rfl

/-- What a registry wraps a value in has the terminal value of that value, and belongs to the first
case whose handle casts the value. -/
theorem Sound.exists_first_of_wrapValue (hw : w.Sound) {v : Value}
    (hblind : μ.Blind blocks v.terminal) (hblock : block ∈ blocks)
    (hblockOf : ∀ c, blockOf c ∈ blocks) (hid : id < w.size) {u : Union}
    (hwrap : ((Host.ofWorld w μ block).wrapValue id v).run = some u) :
    u.terminal = v.terminal ∧ ∃ c, (w.registry id).First
      (fun c => (c.cast (Host.ofWorld w μ (blockOf c)) v).run.isSome) c := by
  rw [hw.wrapValue_eq μ block hid] at hwrap
  obtain ⟨outline, rfl⟩ := exists_outline_of_unmemoised hw.wellFounded hwrap
  refine ⟨by simp, ?_⟩
  rw [unmemoised_eq, Registry.answer_eq] at hwrap
  obtain ⟨⟨c, item⟩, hfirst, -⟩ := Option.map_eq_some_iff.mp hwrap
  have hfind := congrArg (Option.map Prod.fst) hfirst
  rw [Registry.map_firstSeen, hw.find?_sees_eq hblind hblock hblockOf] at hfind
  exact ⟨c, (hw.ordered id).first_of_find? hfind⟩

/-- A registry wraps a value if some handle casts it. -/
theorem Sound.canWrapValue_iff (hw : w.Sound) {v : Value}
    (hblind : μ.Blind blocks v.terminal) (hblock : block ∈ blocks)
    (hblockOf : ∀ c, blockOf c ∈ blocks) (hid : id < w.size) :
    ((Host.ofWorld w μ block).canWrapValue id v).run = true
      ↔ ∃ c ∈ (w.registry id).cases,
          (c.cast (Host.ofWorld w μ (blockOf c)) v).run.isSome = true := by
  have hcan : ((Host.ofWorld w μ block).canWrapValue id v).run
      = ((Host.ofWorld w μ block).wrapValue id v).run.isSome := rfl
  rw [hcan, hw.wrapValue_eq μ block hid, unmemoised_eq, Registry.answer_eq, Option.isSome_map,
    ← Option.isSome_map (f := Prod.fst), Registry.map_firstSeen,
    hw.find?_sees_eq hblind hblock hblockOf, List.find?_isSome]

end Sound

/-- A registry and its handles agree.  A union belongs to a case if some handle accepts it, and the
case is the first whose handle does.  A registry wraps a value if some handle casts it, and the
union belongs to the first case whose handle does.  Every call has a block of its own, and the
predicates are blind to it. -/
theorem Reachable.membership_agrees {w : World C P} (hw : w.Reachable) (μ : Meaning C P)
    {blocks : Set Nat} {block block' : Nat} (hblock : block ∈ blocks) (hblock' : block' ∈ blocks)
    {blockOf : Case C P → Nat} (hblockOf : ∀ c, blockOf c ∈ blocks) (id : RegistryId) :
    let host := Host.ofWorld w μ
    let r := w.registry id
    (∀ u : Union, μ.Blind blocks u.terminal →
      (((host block).which id u).run.isSome = true
        ↔ ∃ c ∈ r.cases, (c.accepts (host (blockOf c)) u).run = true) ∧
      ∀ info, ((host block).which id u).run = some info
        ↔ ∃ c, r.First (fun c => (c.accepts (host (blockOf c)) u).run) c ∧ c.info = info) ∧
    (id < w.size → ∀ v : Value, μ.Blind blocks v.terminal →
      (((host block).canWrapValue id v).run = true
        ↔ ∃ c ∈ r.cases, (c.cast (host (blockOf c)) v).run.isSome = true) ∧
      ∀ u, ((host block).wrapValue id v).run = some u →
        ∃ c, r.First (fun c => (c.cast (host (blockOf c)) v).run.isSome) c ∧
          ((host block').which id u).run = some c.info) := by
  intro host r
  have hsound := hw.sound
  have hordered := hsound.ordered id
  refine ⟨fun u hblind => ⟨?_, fun info => ?_⟩, fun hid v hblind => ⟨?_, fun u hwrap => ?_⟩⟩
  · rw [hsound.which_eq_find?_accepts hblind hblock hblockOf, Option.isSome_map, List.find?_isSome]
  · rw [hsound.which_eq_find?_accepts hblind hblock hblockOf, Option.map_eq_some_iff]
    exact exists_congr fun c => and_congr_left' hordered.find?_eq_some_iff
  · exact hsound.canWrapValue_iff hblind hblock hblockOf hid
  · obtain ⟨hterminal, c, hfirst⟩ :=
      hsound.exists_first_of_wrapValue hblind hblock hblockOf hid hwrap
    refine ⟨c, hfirst, ?_⟩
    rw [hsound.which_eq_find?_accepts (hterminal.symm ▸ hblind) hblock' hblockOf]
    simp only [accepts_eq_isSome_cast _ _ hterminal]
    rw [hordered.find?_eq_some_iff.mpr hfirst]
    rfl

/-- In the diamond the handle of the left branch refuses the value and that of the right branch
casts it, each in another block than the registry. -/
theorem diamond_membership_agrees :
    let v : Value := .scalar ⟨0, 0⟩ (.int32 5)
    let host := Host.ofWorld diamond constantMeaning
    let u : Union := ⟨⟨"top"⟩, .layer ⟨7, 2⟩ (.layer ⟨7, 1⟩ v)⟩
    constantMeaning.Blind Set.univ v.terminal ∧ 3 < diamond.size ∧
      ((host 7).wrapValue 3 v).run = some u ∧
      ∃ c, (diamond.registry 3).First (fun c => (c.cast (host (9 + c.ordinal)) v).run.isSome) c ∧
        ((host 8).which 3 u).run = some c.info := by
  intro v host u
  have hblind := constantMeaning_blind Set.univ v.terminal
  have hwrap : ((host 7).wrapValue 3 v).run = some u := diamond_wrapValue_top 7 rfl
  have hblockOf : ∀ c : Case Empty Bool, 9 + c.ordinal ∈ Set.univ := fun _ => Set.mem_univ _
  have hagrees := (diamond_reachable.membership_agrees constantMeaning (Set.mem_univ 7)
    (Set.mem_univ 8) hblockOf 3).2 top_lt_size_diamond v hblind
  exact ⟨hblind, top_lt_size_diamond, hwrap, hagrees.2 u hwrap⟩

end World

end CaseUnion
