import CaseUnion.Proofs.Execution
import Mathlib.Data.Set.Function

/-!
# One address, one value

Values share their parts, and equality takes a shared part to be equal without a look at its
content.  So equality is transitive only where an address tells the value that is stored there: two
values with one address and different contents would be equal to each other, and each of them to
values that the other is not equal to.

A set of values is *coherent* if it has the parts of its values and no two values with one address
(`Value.Coherent`).  On a coherent set equality is an equivalence relation, though the comparison of
contents is none: a number that is not a number is equal to itself by its address alone.  Two values
are equal if and only if they have as many layers around equal terminal values.

The values that a program has at hand are coherent (`Execution.supply`).  Each step makes its
values in a block of its own.  There the new values are one value and the layers around it, which
differ in their number and so in their offsets.
-/

namespace CaseUnion

variable {C P : Type}

/-! ## Parts -/

/-- The values that an item is made of. -/
def Item.roots : Item → List Value
  | .datum (.scalar _) => []
  | .datum (.list elements) => elements
  | .union u => [u.inner]
  | .value v | .layer v => [v]

namespace Value

/-- A value is inside another one: it is that value or is met in it at some depth. -/
inductive Inside (part : Value) : Value → Prop
  | refl : Inside part part
  | root {v root : Value} (hroot : root ∈ v.content.roots) (h : Inside part root) : Inside part v

variable {part v w : Value}

theorem terminal_inside : ∀ v : Value, v.terminal.Inside v
  | scalar .. | list .. | handle .. => .refl
  | layer _ v => .root (List.mem_singleton_self v) (terminal_inside v)

theorem sizeOf_lt_of_mem_roots {root : Value} (h : root ∈ v.content.roots) :
    sizeOf root < sizeOf v := by
  cases v with
  | scalar addr x => cases h
  | list addr elements =>
      have hlt : sizeOf root < sizeOf elements := List.sizeOf_lt_of_mem h
      rw [list.sizeOf_spec]
      omega
  | layer addr inner =>
      obtain rfl : root = inner := List.mem_singleton.mp h
      rw [layer.sizeOf_spec]
      omega
  | handle addr tag inner =>
      obtain rfl : root = inner := List.mem_singleton.mp h
      rw [handle.sizeOf_spec]
      omega

theorem Inside.trans {inner : Value} (h : inner.Inside part) (h' : part.Inside v) :
    inner.Inside v := by
  induction h' with
  | refl => exact h
  | root hroot _ ih => exact .root hroot ih

theorem isLayer_eq_decide (v : Value) : v.isLayer = decide (v.height ≠ 0) := by
  cases v <;> rfl

/-- What is inside a value that is made is made. -/
theorem Inside.made (h : part.Inside v) (hv : v.Made) : part.Made := by
  induction h with
  | refl => exact hv
  | root hroot _ ih =>
      refine ih ?_
      cases hv with
      | scalar => cases hroot
      | list _ helements => exact helements _ hroot
      | layer _ hinner => exact List.mem_singleton.mp hroot ▸ hinner

/-- The offset of a value that is made is the number of its layers. -/
theorem Made.offset_addr (h : v.Made) : v.addr.offset = v.height := by
  cases h <;> rfl

end Value

/-! ## Equality and its two branches -/

theorem Binary64.same_trans {x y z : Binary64} (hxy : x.same y = true) (hyz : y.same z = true) :
    x.same z = true := by
  simp only [same, Bool.and_eq_true, Bool.or_eq_true, beq_iff_eq, Bool.not_eq_true'] at hxy hyz ⊢
  obtain ⟨⟨hx, -⟩, hxy⟩ := hxy
  obtain ⟨⟨-, hz⟩, hyz⟩ := hyz
  refine ⟨⟨hx, hz⟩, ?_⟩
  obtain ⟨x⟩ := x
  obtain ⟨y⟩ := y
  obtain ⟨z⟩ := z
  rcases hxy with rfl | ⟨hxzero, hyzero⟩
  · exact hyz
  · rcases hyz with rfl | ⟨-, hzzero⟩
    · exact .inr ⟨hxzero, hyzero⟩
    · exact .inr ⟨hxzero, hzzero⟩

theorem Scalar.same_trans {x y z : Scalar} (hxy : x.same y = true) (hyz : y.same z = true) :
    x.same z = true := by
  cases x with
  | float64 x =>
      cases y with
      | float64 y =>
          cases z with
          | float64 z => exact Binary64.same_trans hxy hyz
          | _ => cases hyz
      | _ => cases hxy
  | _ =>
      cases of_decide_eq_true hxy
      exact hyz

theorem Scalar.type_eq_of_same {x y : Scalar} (h : x.same y = true) : x.type = y.type := by
  cases x with
  | float64 x =>
      cases y with
      | float64 y => rfl
      | _ => cases h
  | _ =>
      cases of_decide_eq_true h
      rfl

/-- Items that are equal have one type. -/
theorem Item.type_eq_of_same {a b : Item} (h : a.same b = true) : a.type = b.type := by
  cases a with
  | datum d =>
      cases b with
      | datum e =>
          cases d with
          | scalar x =>
              cases e with
              | scalar y => exact congrArg ItemType.datum (Scalar.type_eq_of_same h)
              | list ys => cases h
          | list xs =>
              cases e with
              | scalar y => cases h
              | list ys => rfl
      | _ => cases h
  | union u =>
      cases b with
      | union u' => exact congrArg ItemType.union (of_decide_eq_true (Bool.and_eq_true_iff.mp h).1)
      | _ => cases h
  | value v =>
      cases b with
      | value w => rfl
      | _ => cases h
  | layer v =>
      cases b with
      | layer w => rfl
      | _ => cases h

/-- Values are equal if they have one address, or are of one type with equal contents. -/
theorem Value.same_iff (v w : Value) :
    v.same w = true ↔ v.addr = w.addr ∨ (v.type = w.type ∧ v.content.same w.content = true) := by
  have hsame : v.same w = true ↔ v.addr = w.addr ∨ v.content.same w.content = true := by
    cases v <;> cases w <;> simp [same, addr, content, Item.same, Datum.same, Union.same] <;>
      exact decide_eq_true_iff
  rw [hsame]
  exact or_congr_right (iff_and_self.mpr Item.type_eq_of_same)

theorem Value.sameElements_trans {us vs ws : List Value}
    (h : ∀ u ∈ us, ∀ v ∈ vs, ∀ w ∈ ws, u.same v = true → v.same w = true → u.same w = true)
    (huv : sameElements us vs = true) (hvw : sameElements vs ws = true) :
    sameElements us ws = true := by
  induction us generalizing vs ws with
  | nil =>
      cases vs with
      | nil => exact hvw
      | cons v vs => cases huv
  | cons u us ih =>
      cases vs with
      | nil => cases huv
      | cons v vs =>
          cases ws with
          | nil => cases hvw
          | cons w ws =>
              simp only [sameElements, Bool.and_eq_true, List.forall_mem_cons] at huv hvw h ⊢
              refine ⟨h.1.1.1 huv.1 hvw.1, ih (fun u hu v hv w hw => ?_) huv.2 hvw.2⟩
              exact ((h.2 u hu).2 v hv).2 w hw

theorem Datum.same_trans {d e f : Datum}
    (h : ∀ u ∈ (Item.datum d).roots, ∀ v ∈ (Item.datum e).roots, ∀ w ∈ (Item.datum f).roots,
      u.same v = true → v.same w = true → u.same w = true)
    (hde : d.same e = true) (hef : e.same f = true) : d.same f = true := by
  cases d with
  | scalar x =>
      cases e with
      | scalar y =>
          cases f with
          | scalar z => exact Scalar.same_trans hde hef
          | list ws => cases hef
      | list vs => cases hde
  | list us =>
      cases e with
      | scalar y => cases hde
      | list vs =>
          cases f with
          | scalar z => cases hef
          | list ws => exact Value.sameElements_trans h hde hef

/-- Equality of items is transitive if that of the values they are made of is. -/
theorem Item.same_trans {a b c : Item}
    (h : ∀ u ∈ a.roots, ∀ v ∈ b.roots, ∀ w ∈ c.roots,
      u.same v = true → v.same w = true → u.same w = true)
    (hab : a.same b = true) (hbc : b.same c = true) : a.same c = true := by
  cases a with
  | datum d =>
      cases b with
      | datum e =>
          cases c with
          | datum f => exact Datum.same_trans h hab hbc
          | _ => cases hbc
      | _ => cases hab
  | union u =>
      cases b with
      | union v =>
          cases c with
          | union w =>
              obtain ⟨huv, hab⟩ := Bool.and_eq_true_iff.mp hab
              obtain ⟨hvw, hbc⟩ := Bool.and_eq_true_iff.mp hbc
              have htag : u.tag = w.tag :=
                (of_decide_eq_true huv).trans (of_decide_eq_true hvw)
              refine Bool.and_eq_true_iff.mpr ⟨decide_eq_true htag, ?_⟩
              exact h _ (.head _) _ (.head _) _ (.head _) hab hbc
          | _ => cases hbc
      | _ => cases hab
  | value u =>
      cases b with
      | value v =>
          cases c with
          | value w => exact h _ (.head _) _ (.head _) _ (.head _) hab hbc
          | _ => cases hbc
      | _ => cases hab
  | layer u =>
      cases b with
      | layer v =>
          cases c with
          | layer w => exact h _ (.head _) _ (.head _) _ (.head _) hab hbc
          | _ => cases hbc
      | _ => cases hab

namespace Value

/-! ## Coherent sets -/

/-- The set has the parts of its values, and no two values with one address. -/
structure Coherent (values : Set Value) : Prop where
  parts : ∀ v ∈ values, ∀ part : Value, part.Inside v → part ∈ values
  injOn : Set.InjOn addr values

namespace Coherent

variable {values : Set Value} {u v w : Value}

theorem root (h : Coherent values) (hv : v ∈ values) {root : Value}
    (hroot : root ∈ v.content.roots) : root ∈ values :=
  h.parts v hv root (.root hroot .refl)

/-- One address means one value. -/
theorem same_iff (h : Coherent values) (hv : v ∈ values) (hw : w ∈ values) :
    v.same w = true ↔ v = w ∨ v.content.same w.content = true := by
  rw [Value.same_iff, h.injOn.eq_iff hv hw]
  exact or_congr_right (and_iff_right_of_imp Item.type_eq_of_same)

/-- Either of two equalities may be by the address and the other one by the contents. -/
theorem same_trans (h : Coherent values) {u v w : Value} (hu : u ∈ values) (hv : v ∈ values)
    (hw : w ∈ values) (huv : u.same v = true) (hvw : v.same w = true) : u.same w = true := by
  rcases (h.same_iff hu hv).mp huv with rfl | hcontent
  · exact hvw
  rcases (h.same_iff hv hw).mp hvw with rfl | hcontent'
  · exact huv
  refine (h.same_iff hu hw).mpr (.inr (Item.same_trans ?_ hcontent hcontent'))
  exact fun a ha b hb c hc => h.same_trans (h.root hu ha) (h.root hv hb) (h.root hw hc)
termination_by sizeOf u
decreasing_by exact sizeOf_lt_of_mem_roots ha

/-- Equality of items that are made of such values is transitive. -/
theorem item_same_trans (h : Coherent values) {a b c : Item} (ha : ∀ u ∈ a.roots, u ∈ values)
    (hb : ∀ v ∈ b.roots, v ∈ values) (hc : ∀ w ∈ c.roots, w ∈ values) (hab : a.same b = true)
    (hbc : b.same c = true) : a.same c = true :=
  Item.same_trans (fun u hu v hv w hw => h.same_trans (ha u hu) (hb v hv) (hc w hw)) hab hbc

/-- Layers are equal if the values inside are. -/
theorem same_layer_iff (h : Coherent values) {a b : Address} (hv : layer a v ∈ values)
    (hw : layer b w ∈ values) : (layer a v).same (layer b w) = true ↔ v.same w = true := by
  rw [h.same_iff hv hw]
  constructor
  · rintro (heq | hinner)
    · cases heq
      exact same_refl v
    · exact hinner
  · exact .inr

theorem type_eq_of_same (h : Coherent values) (hv : v ∈ values) (hw : w ∈ values)
    (hsame : v.same w = true) : v.type = w.type := by
  rcases (h.same_iff hv hw).mp hsame with rfl | hcontent
  · rfl
  · exact Item.type_eq_of_same hcontent

/-- A layer is not equal to a terminal value. -/
theorem isLayer_eq_of_same (h : Coherent values) (hv : v ∈ values) (hw : w ∈ values)
    (hsame : v.same w = true) : v.isLayer = w.isLayer := by
  have htype := h.type_eq_of_same hv hw hsame
  cases v <;> cases w <;> first | rfl | cases htype

/-- Values are equal if they have as many layers around equal terminal values. -/
theorem same_iff_layers (h : Coherent values) {v w : Value} (hv : v ∈ values) (hw : w ∈ values) :
    v.same w = true ↔ v.height = w.height ∧ v.terminal.same w.terminal = true := by
  by_cases hlayer : v.isLayer = w.isLayer
  · cases v with
    | layer a v =>
        cases w with
        | layer b w =>
            have hinner := h.same_iff_layers (h.root hv (.head _)) (h.root hw (.head _))
            rw [h.same_layer_iff hv hw, hinner, height, height, terminal, terminal,
              Nat.add_right_cancel_iff]
        | _ => cases hlayer
    | _ =>
        cases w with
        | layer b w => cases hlayer
        | _ => exact (and_iff_right rfl).symm
  · refine iff_of_false (fun hsame => hlayer (h.isLayer_eq_of_same hv hw hsame)) ?_
    rintro ⟨hheight, -⟩
    rw [isLayer_eq_decide, isLayer_eq_decide, hheight] at hlayer
    exact hlayer rfl
termination_by sizeOf v

end Coherent

/-! ## Layers around a base -/

/-- A value lies in a block and is a base with layers around it. -/
def LayeredIn (v : Value) (block : Nat) (base : Value) : Prop :=
  v.addr.block = block ∧ ∃ layers, v = base.layered block layers

/-- Every part of a value is known, or lies in a block and is a base with layers around it. -/
def Over (v : Value) (known : Set Value) (block : Nat) (base : Value) : Prop :=
  ∀ part : Value, part.Inside v → part ∈ known ∨ part.LayeredIn block base

variable {known : Set Value} {block : Nat} {base v w : Value}

/-- In a block the offset counts the layers around the base, so one address means one value. -/
theorem LayeredIn.eq_of_addr_eq (h : v.LayeredIn block base) (h' : w.LayeredIn block base)
    (hv : v.Made) (hw : w.Made) (haddr : v.addr = w.addr) : v = w := by
  obtain ⟨-, layers, hlayers⟩ := h
  obtain ⟨-, layers', hlayers'⟩ := h'
  have hheight : v.height = w.height := by
    rw [← hv.offset_addr, ← hw.offset_addr, haddr]
  rw [hlayers, hlayers', height_layered, height_layered, Nat.add_left_cancel_iff] at hheight
  rw [hlayers, hlayers', hheight]

theorem Over.of_mem (hknown : Coherent known) (hv : v ∈ known) : v.Over known block base :=
  fun part hpart => .inl (hknown.parts v hv part hpart)

theorem Over.part (h : v.Over known block base) {part : Value} (hpart : part.Inside v) :
    part.Over known block base :=
  fun inner hinner => h inner (hinner.trans hpart)

theorem Over.layered (h : base.Over known block base) (layers : Nat) :
    (base.layered block layers).Over known block base := by
  induction layers with
  | zero => exact h
  | succ layers ih =>
      intro part hpart
      cases hpart with
      | refl => exact .inr ⟨rfl, layers + 1, rfl⟩
      | root hroot hpart =>
          obtain rfl := List.mem_singleton.mp hroot
          exact ih part hpart

/-- A datum that is stored is a base of its own, if its elements are known. -/
theorem over_storedAt (hknown : Coherent known) {d : Datum}
    (hroots : ∀ root ∈ (Item.datum d).roots, root ∈ known) :
    (d.storedAt ⟨block, 0⟩).Over known block (d.storedAt ⟨block, 0⟩) := by
  intro part hpart
  cases d with
  | scalar x =>
      cases hpart with
      | refl => exact .inr ⟨rfl, 0, rfl⟩
      | root hroot => cases hroot
  | list elements =>
      cases hpart with
      | refl => exact .inr ⟨rfl, 0, rfl⟩
      | root hroot hpart => exact .inl (hknown.parts _ (hroots _ hroot) part hpart)

/-- What is stored for an item has layers around a base, if the item is made of values that are
known. -/
theorem exists_over_ofItem (hknown : Coherent known) {wrappers : List Tag} {item : Item}
    (hitem : item.Made wrappers) (hroots : ∀ root ∈ item.roots, root ∈ known) (block : Nat) :
    ∃ base, (ofItem wrappers block item).Over known block base := by
  cases item with
  | datum d => exact ⟨_, over_storedAt hknown hroots⟩
  | union u =>
      have hinner : u.inner.Over known block u.inner := .of_mem hknown (hroots _ (.head _))
      rw [ofItem, if_pos hitem.1]
      exact ⟨u.inner, hinner.layered 1⟩
  | value v => exact ⟨v, .of_mem hknown (hroots _ (.head _))⟩
  | layer v =>
      have hinner : v.Over known block v := .of_mem hknown (hroots _ (.head _))
      exact ⟨v, hinner.layered 1⟩

/-! ## A supply of values -/

/-- Coherent values that are made, in blocks before the next one. -/
structure Supply (values : Set Value) (next : Nat) : Prop where
  coherent : Coherent values
  made : ∀ v ∈ values, v.Made
  block_lt : ∀ v ∈ values, v.addr.block < next

theorem supply_empty (next : Nat) : Supply ∅ next :=
  ⟨⟨nofun, Set.injOn_empty _⟩, nofun, nofun⟩

theorem Supply.mono (h : Supply known block) {next : Nat} (hle : block ≤ next) :
    Supply known next :=
  ⟨h.coherent, h.made, fun v hv => (h.block_lt v hv).trans_le hle⟩

/-- No value of the supply has an address in the next block. -/
theorem Supply.addr_ne (h : Supply known block) (hv : v ∈ known) (hw : w.LayeredIn block base) :
    v.addr ≠ w.addr := by
  intro haddr
  have hlt := h.block_lt v hv
  rw [haddr, hw.1] at hlt
  exact Nat.lt_irrefl block hlt

/-- The parts of a value can be added in the next block, if it has layers around a base there. -/
theorem Supply.insert (h : Supply known block) (hv : v.Made) (hover : v.Over known block base) :
    Supply (known ∪ {part | part.Inside v}) (block + 1) := by
  have hmade : ∀ w ∈ known ∪ {part | part.Inside v}, w.Made := by
    rintro w (hw | hw)
    · exact h.made w hw
    · exact Inside.made hw hv
  have hcases : ∀ w ∈ known ∪ {part | part.Inside v}, w ∈ known ∨ w.LayeredIn block base := by
    rintro w (hw | hw)
    · exact .inl hw
    · exact hover w hw
  refine ⟨⟨fun w hw part hpart => ?_, fun w hw w' hw' haddr => ?_⟩, hmade, fun w hw => ?_⟩
  · rcases hw with hw | hw
    · exact .inl (h.coherent.parts w hw part hpart)
    · exact .inr (hpart.trans hw)
  · rcases hcases w hw with hold | hnew
    · rcases hcases w' hw' with hold' | hnew'
      · exact h.coherent.injOn hold hold' haddr
      · exact absurd haddr (h.addr_ne hold hnew')
    · rcases hcases w' hw' with hold' | hnew'
      · exact absurd haddr.symm (h.addr_ne hold' hnew)
      · exact hnew.eq_of_addr_eq hnew' (hmade w hw) (hmade w' hw') haddr
  · rcases hcases w hw with hold | hnew
    · exact Nat.lt_succ_of_lt (h.block_lt w hold)
    · exact hnew.1 ▸ Nat.lt_succ_self block

end Value

/-! ## What a step makes -/

/-- An item is made of values that are known, or of one value with layers around a base. -/
inductive Item.Brings (known : Set Value) (block : Nat) (item : Item) : Prop
  | known (h : ∀ root ∈ item.roots, root ∈ known)
  | layered {root base : Value} (hroots : item.roots = [root]) (h : root.Over known block base)

/-- The values that an item is made of are made if the item is. -/
theorem Item.Made.of_mem_roots {wrappers : List Tag} {item : Item} (h : item.Made wrappers)
    {v : Value} (hv : v ∈ item.roots) : v.Made := by
  cases item with
  | datum d =>
      cases d with
      | scalar x => cases hv
      | list elements => exact h v hv
  | union u =>
      obtain rfl := List.mem_singleton.mp hv
      exact h.2
  | value w =>
      obtain rfl := List.mem_singleton.mp hv
      exact h
  | layer w =>
      obtain rfl := List.mem_singleton.mp hv
      exact h

section Steps

variable {μ : Meaning C P} {w : World C P} {known : Set Value} {block : Nat} {id : RegistryId}
  {c : Case C P} {v : Value} {u : Union} {item : Item}

theorem Value.Coherent.terminal_mem (hknown : Value.Coherent known) (hv : v ∈ known) :
    v.terminal ∈ known :=
  hknown.parts v hv v.terminal v.terminal_inside

/-- The content of a value brings nothing but parts of that value. -/
theorem Value.Coherent.brings_content (hknown : Value.Coherent known) (hv : v ∈ known) :
    v.content.Brings known block :=
  .known fun _ hroot => hknown.root hv hroot

/-- What a registry answers has its layers around the terminal value. -/
theorem World.Reachable.brings_of_unmemoised (hw : w.Reachable) (hknown : Value.Coherent known)
    (hv : v ∈ known) (h : w.unmemoised hw.sound.wellFounded μ block v.terminal id = some u) :
    (Item.union u).Brings known block := by
  obtain ⟨outline, rfl⟩ := World.exists_outline_of_unmemoised hw.sound.wellFounded h
  have hterminal := hknown.terminal_mem hv
  exact .layered rfl ((Value.Over.of_mem hknown hterminal).layered outline.layers)

/-- What a case sees in a known value brings no more than that, unless a custom cast has a hand in
it. -/
theorem World.Reachable.brings_of_cast (hw : w.Reachable) (hc : c ∈ (w.registry id).cases)
    (hsource : ∀ cast, c.recogniser.source ≠ .cast (.custom cast)) (hknown : Value.Coherent known)
    (hv : v ∈ known) (h : (c.cast (Host.ofWorld w μ block) v).run = some item) :
    item.Brings known block := by
  rcases hw.sound.content_or_answer_of_cast hc hsource h with rfl | ⟨child, u, hanswer, rfl⟩
  · exact hknown.brings_content (hknown.terminal_mem hv)
  · exact hw.brings_of_unmemoised hknown hv hanswer

/-- What a handle builds has layers around a base, if the handle is given known values and its
literal is made of some. -/
theorem Value.Coherent.brings_of_wrap (hknown : Value.Coherent known)
    (hliteral : ∀ expected, c.recogniser.literal? = some expected →
      expected.Made w.wrappers ∧ ∀ root ∈ expected.roots, root ∈ known)
    {given : Item} (hgiven : given.Made w.wrappers) (hroots : ∀ root ∈ given.roots, root ∈ known)
    (h : (c.wrap (Host.ofWorld w μ block) given).run = some u) :
    (Item.union u).Brings known block := by
  obtain ⟨base, hstored⟩ := Value.exists_over_ofItem hknown hgiven hroots block
  cases Case.builds_of_run_wrap h with
  | @literal expected hrecogniser =>
      obtain ⟨hmade, hroots⟩ := hliteral expected (by rw [hrecogniser]; rfl)
      obtain ⟨base, hstored⟩ := Value.exists_over_ofItem hknown hmade hroots block
      exact .layered rfl hstored
  | ofType => exact .layered rfl hstored
  | byCast => exact .layered rfl (hstored.part (Value.terminal_inside _))
  | @nested child guard hrecogniser inner hguard =>
      have hinner : inner.inner ∈ known := hroots _ (.head _)
      exact .layered rfl ((Value.Over.of_mem hknown hinner).layered 1)

end Steps

/-! ## The values that a program has at hand -/

/-- The values inside items, at any depth. -/
def valuesIn (items : List Item) : Set Value :=
  {v | ∃ item ∈ items, ∃ root ∈ item.roots, v.Inside root}

section Programs

variable {μ : Meaning C P} {w : World C P} {items : List Item} {block next : Nat} {item : Item}

theorem mem_valuesIn (hitem : item ∈ items) : ∀ root ∈ item.roots, root ∈ valuesIn items :=
  fun root hroot => ⟨item, hitem, root, hroot, .refl⟩

theorem valuesIn_nil : valuesIn [] = ∅ := by
  rw [Set.eq_empty_iff_forall_notMem]
  rintro v ⟨item, hitem, -⟩
  cases hitem

theorem valuesIn_cons (item : Item) (items : List Item) :
    valuesIn (item :: items) = valuesIn items ∪ {v | ∃ root ∈ item.roots, v.Inside root} := by
  ext v
  exact (List.exists_mem_cons_iff _ item items).trans or_comm

/-- A step makes an item of values at hand, or adds layers to one. -/
theorem Makes.brings (h : Makes μ w items block item) (hw : w.Reachable)
    (hstock : w.Stocked items)
    (hliterals : ∀ id, ∀ c ∈ (w.registry id).cases, ∀ expected,
      c.recogniser.literal? = some expected → expected ∈ items)
    (hknown : Value.Coherent (valuesIn items)) : item.Brings (valuesIn items) block := by
  have hvalue : ∀ v : Value, .value v ∈ items → v ∈ valuesIn items :=
    fun v hv => mem_valuesIn hv v (.head _)
  cases h with
  | scalar content => exact .known nofun
  | list h => exact .known fun v hv => hvalue v (h v hv)
  | @element elements v h hv =>
      refine .known fun root hroot => ?_
      obtain rfl := List.mem_singleton.mp hroot
      exact mem_valuesIn h root hv
  | @stored given h =>
      obtain ⟨base, hstored⟩ :=
        Value.exists_over_ofItem hknown (hstock.items given h) (mem_valuesIn h) block
      exact .layered rfl hstored
  | content h => exact hknown.brings_content (hvalue _ h)
  | layer h => exact .known fun root hroot => mem_valuesIn h root hroot
  | inner h => exact .known fun root hroot => mem_valuesIn h root hroot
  | untagged h => exact .known fun root hroot => mem_valuesIn h root hroot
  | wrapped h hwrap =>
      rw [hw.sound.wrapValue_eq_unmemoised] at hwrap
      exact hw.brings_of_unmemoised hknown (hvalue _ h) hwrap
  | seen hc hsource h hcast => exact hw.brings_of_cast hc hsource hknown (hvalue _ h) hcast
  | @built id c given u hc h hwrap =>
      refine hknown.brings_of_wrap (fun expected hexpected => ?_) (hstock.items given h)
        (mem_valuesIn h) hwrap
      exact ⟨hstock.literals id c hc expected hexpected,
        mem_valuesIn (hliterals id c hc expected hexpected)⟩
  | @builtOfValue id c v u hc h hwrap =>
      obtain ⟨-, -, rfl⟩ := Case.of_run_wrapValue hwrap
      refine .known fun root hroot => ?_
      obtain rfl := List.mem_singleton.mp hroot
      exact hknown.terminal_mem (hvalue v h)

/-- One more item keeps the supply. -/
theorem Value.Supply.cons {wrappers : List Tag} (h : Value.Supply (valuesIn items) next)
    (hitem : item.Made wrappers) (hbrings : item.Brings (valuesIn items) next) :
    Value.Supply (valuesIn (item :: items)) (next + 1) := by
  rw [valuesIn_cons]
  cases hbrings with
  | known hroots =>
      have hsubset : {v | ∃ root ∈ item.roots, v.Inside root} ⊆ valuesIn items := by
        rintro v ⟨root, hroot, hinside⟩
        exact h.coherent.parts root (hroots root hroot) v hinside
      rw [Set.union_eq_left.mpr hsubset]
      exact h.mono (Nat.le_succ next)
  | @layered root base hroots hover =>
      have hparts : {v : Value | ∃ root ∈ item.roots, v.Inside root} = {v | v.Inside root} := by
        rw [hroots]
        simp only [List.mem_singleton, exists_eq_left]
      rw [hparts]
      exact h.insert (hitem.of_mem_roots (hroots ▸ .head _)) hover

/-- The literals of all cases are at hand. -/
theorem Execution.literal_mem (h : Execution μ w items next) (id : RegistryId) :
    ∀ c ∈ (w.registry id).cases, ∀ expected,
      c.recogniser.literal? = some expected → expected ∈ items := by
  induction h with
  | start =>
      intro c hc
      cases hc
  | operate _ operation _ hliteral ih =>
      intro c hc expected hexpected
      rcases Operation.mem_cases_apply hc with hold | ⟨name, rfl, -⟩
      · exact ih c hold expected hexpected
      · exact hliteral expected hexpected
  | make _ _ ih => exact fun c hc expected hexpected => .tail _ (ih c hc expected hexpected)

/-- The values that a program has at hand are coherent, made, and in blocks before the next one. -/
theorem Execution.supply (h : Execution μ w items next) : Value.Supply (valuesIn items) next := by
  induction h with
  | start =>
      rw [valuesIn_nil]
      exact Value.supply_empty 0
  | operate _ _ _ _ ih => exact ih
  | make hrun hmakes ih =>
      exact ih.cons (hmakes.made hrun.reachable hrun.stocked)
        (hmakes.brings hrun.reachable hrun.stocked hrun.literal_mem ih.coherent)

/-- The inner value of a union at hand is inside an item. -/
theorem inner_mem_valuesIn {u : Union} (hu : .union u ∈ items) : u.inner ∈ valuesIn items :=
  mem_valuesIn hu _ (.head _)

/-- Unions are equal if their layers are, as values in two blocks or as values at hand. -/
theorem Value.Coherent.same_toValue_iff {values : Set Value} (h : Coherent values) {u u' : Union}
    {b b' : Nat} (hhand : b = b' → u.toValue b ∈ values ∧ u'.toValue b' ∈ values) :
    (u.toValue b).same (u'.toValue b') = true ↔ u.same u' = true := by
  by_cases hblock : b = b'
  · obtain ⟨hu, hu'⟩ := hhand hblock
    exact h.same_layer_iff hu hu'
  · simp [Union.toValue, Value.boxed, Value.same, Union.same, hblock]

/-- Equality is an equivalence relation on the values that a program has at hand and those inside
them.  Values are equal if they are one stored value, or are of one type with equal contents, and
that is so exactly if they have as many layers around equal terminal values.  The same goes for the
unions at hand, which are equal exactly if their layers are, stored as values. -/
theorem Execution.equality_by_layers (h : Execution μ w items next) :
    Equivalence (fun v v' : valuesIn items => (v.val == v'.val) = true) ∧
    (∀ v ∈ valuesIn items, ∀ v' ∈ valuesIn items,
      (v != v') = !(v == v') ∧
      ((v == v') = true
        ↔ v.addr = v'.addr ∨ (v.type = v'.type ∧ v.content.same v'.content = true)) ∧
      ((v == v') = true ↔ v.height = v'.height ∧ (v.terminal == v'.terminal) = true)) ∧
    Equivalence (fun u u' : {u : Union // .union u ∈ items} => u.val.same u'.val = true) ∧
    ∀ u, .union u ∈ items → ∀ u', .union u' ∈ items →
      (u.same u' = true
        ↔ u.inner.height = u'.inner.height ∧ (u.terminal == u'.terminal) = true) ∧
      ∀ b b', (b = b' → u.toValue b ∈ valuesIn items ∧ u'.toValue b' ∈ valuesIn items) →
        ((u.toValue b == u'.toValue b') = true ↔ u.same u' = true) := by
  have hcoherent := h.supply.coherent
  have hequiv : Equivalence (fun v v' : valuesIn items => (v.val == v'.val) = true) :=
    { refl := fun v => v.val.same_refl
      symm := fun {v v'} hsame => (v'.val.same_comm v.val).trans hsame
      trans := fun {u v w} huv hvw => hcoherent.same_trans u.2 v.2 w.2 huv hvw }
  refine ⟨hequiv, fun v hv v' hv' => ⟨rfl, v.same_iff v', hcoherent.same_iff_layers hv hv'⟩, ?_,
    fun u hu u' hu' => ⟨?_, fun b b' hhand => hcoherent.same_toValue_iff hhand⟩⟩
  · exact hequiv.comap fun u : {u : Union // .union u ∈ items} =>
      (⟨u.val.inner, inner_mem_valuesIn u.2⟩ : valuesIn items)
  · exact hcoherent.same_iff_layers (inner_mem_valuesIn hu) (inner_mem_valuesIn hu')

end Programs

/-! ## A shared number that is not a number -/

/-- A world with one registry, whose case recognises lists. -/
def World.listing : World Empty Bool :=
  ([.create "Lists" .matching ⟨"lists"⟩, .register 0 "list" (.ofType (.datum .list) none)] :
      List (Operation Empty Bool)).foldl Operation.apply {}

/-- The world, written out. -/
theorem World.listing_eq :
    listing = {
      registries := [
        { label := "Lists", flavor := .matching, tag := ⟨"lists"⟩,
          cases := [⟨"Lists", "list", 0, ⟨"lists"⟩, .ofType (.datum .list) none⟩],
          places := (∅ : Std.TreeMap String Nat).insert "list" 0 }]
      wrappers := [⟨"lists"⟩] } := by
  cbv

/-- A program stores a number that is not a number, and twice a list of that value.  It wraps the
two lists and stores the unions. -/
theorem Execution.listing :
    let x : Value := .scalar ⟨1, 0⟩ (.float64 .nan)
    let v : Value := .list ⟨3, 0⟩ [x]
    let v' : Value := .list ⟨4, 0⟩ [x]
    Execution World.constantMeaning World.listing
      [.value (.layer ⟨8, 1⟩ v'), .value (.layer ⟨7, 1⟩ v), .union ⟨⟨"lists"⟩, v'⟩,
        .union ⟨⟨"lists"⟩, v⟩, .value v', .value v, .datum (.list [x]), .value x,
        .ofScalar (.float64 .nan)] 9 := by
  intro x v v'
  have hworld : Execution World.constantMeaning World.listing [] 0 := by
    simp only [World.listing, List.foldl_cons, List.foldl_nil]
    refine .operate (.operate .start (.create ..) trivial ?_) (.register ..) ?_ ?_
    all_goals
      intro _ h
      cases h
  have hnumber := hworld.make (.scalar (.float64 .nan))
  have hvalue := hnumber.make (.stored (.head _))
  have hshared : ∀ y ∈ [x], .value y ∈ [Item.value x, .ofScalar (.float64 .nan)] := by
    intro y hy
    rw [List.mem_singleton.mp hy]
    exact .head _
  have hlist := hvalue.make (.list hshared)
  have hfirst := hlist.make (.stored (.head _))
  have hsecond := hfirst.make (.stored (.tail _ (.head _)))
  have hwrap : ∀ block addr, ((Host.ofWorld World.listing World.constantMeaning block).wrapValue 0
      (.list addr [x])).run = some ⟨⟨"lists"⟩, .list addr [x]⟩ := by
    intro block addr
    rw [World.listing_eq]
    rfl
  have hunion := hsecond.make (.wrapped (.tail _ (.head _)) (hwrap 5 ⟨3, 0⟩))
  have hunion' := hunion.make (.wrapped (.tail _ (.head _)) (hwrap 6 ⟨4, 0⟩))
  have hstored : ∀ block addr, Value.ofItem World.listing.wrappers block
      (.union ⟨⟨"lists"⟩, .list addr [x]⟩) = .layer ⟨block, 1⟩ (.list addr [x]) := by
    intro block addr
    rw [World.listing_eq]
    rfl
  have hlayer := hunion'.make (.stored (.tail _ (.head _)))
  have hlayer' := hlayer.make (.stored (.tail _ (.head _)))
  rw [hstored, hstored] at hlayer'
  exact hlayer'

/-- The number is not equal to itself, but its value is.  So the two lists that share it are equal
behind their layers, and so are the two unions. -/
theorem Execution.listing_equality_by_layers :
    let x : Value := .scalar ⟨1, 0⟩ (.float64 .nan)
    let v : Value := .list ⟨3, 0⟩ [x]
    let v' : Value := .list ⟨4, 0⟩ [x]
    let items : List Item :=
      [.value (.layer ⟨8, 1⟩ v'), .value (.layer ⟨7, 1⟩ v), .union ⟨⟨"lists"⟩, v'⟩,
        .union ⟨⟨"lists"⟩, v⟩, .value v', .value v, .datum (.list [x]), .value x,
        .ofScalar (.float64 .nan)]
    Execution World.constantMeaning World.listing items 9 ∧
      x.content.same x.content = false ∧ (x == x) = true ∧
      (Value.layer ⟨7, 1⟩ v == Value.layer ⟨8, 1⟩ v') = true ∧
      (Union.mk ⟨"lists"⟩ v).same ⟨⟨"lists"⟩, v'⟩ = true := by
  intro x v v' items
  have hrun : Execution World.constantMeaning World.listing items 9 := Execution.listing
  obtain ⟨hequiv, hvalues, -, hunions⟩ := hrun.equality_by_layers
  have hlayer := (hvalues (.layer ⟨7, 1⟩ v) (mem_valuesIn (.tail _ (.head _)) _ (.head _))
    (.layer ⟨8, 1⟩ v') (mem_valuesIn (.head _) _ (.head _))).2.2
  have hunion := (hunions ⟨⟨"lists"⟩, v⟩ (.tail _ (.tail _ (.tail _ (.head _)))) ⟨⟨"lists"⟩, v'⟩
    (.tail _ (.tail _ (.head _)))).1
  have hx : x ∈ valuesIn items :=
    ⟨.value v', .tail _ (.tail _ (.tail _ (.tail _ (.head _)))), v', .head _,
      .root (.head _) .refl⟩
  have hlists : (v == v') = true := by
    have hshared : x.same x = true := hequiv.refl ⟨x, hx⟩
    show v.same v' = true
    simp [v, v', Value.same, Value.sameElements, hshared]
  exact ⟨hrun, by decide +kernel, hequiv.refl ⟨x, hx⟩, hlayer.mpr ⟨rfl, hlists⟩,
    hunion.mpr ⟨rfl, hlists⟩⟩

end CaseUnion
