import CaseUnion.World

/-!
# Equality of values

`Value.same` compares addresses first and contents second.  It is reflexive, since every value has
its own address, also where the content is not equal to itself.  It is symmetric
(`Value.same_comm`), since the comparison of addresses and that of contents are.  Layers do not tell
values apart: values that are the same are the same behind a layer, wherever that is stored.

An item that equals the content of a value is stored as an equal value (`Value.same_ofItem`).  That
would not be so if a union of a wrapper type were the content, because it would be stored as a layer
the next time.  But no value is made like that: storing such a union makes a layer of it at once
(`World.stores_ofItem`), and nobody has a union before its registry has made its type a wrapper
type.
-/

namespace CaseUnion

/-! ## Reflexivity and symmetry -/

theorem Binary64.same_comm (x y : Binary64) : x.same y = y.same x := by
  unfold same
  rw [Bool.and_comm (!x.isNaN), Bool.and_comm x.isZero, BEq.comm (a := x.bits)]

theorem Scalar.same_comm (x y : Scalar) : x.same y = y.same x := by
  cases x with
  | float64 x =>
      cases y with
      | float64 y => exact Binary64.same_comm x y
      | _ => rfl
  | _ => cases y <;> simp [same, eq_comm]

namespace Value

theorem same_refl (v : Value) : v.same v = true := by
  cases v <;> simp [same]

mutual

theorem same_comm (v w : Value) : v.same w = w.same v := by
  cases v with
  | scalar a x =>
      cases w with
      | scalar b y => rw [same, same, Scalar.same_comm, decide_eq_decide.mpr eq_comm]
      | _ => exact decide_eq_decide.mpr eq_comm
  | list a vs =>
      cases w with
      | list b ws => rw [same, same, sameElements_comm vs ws, decide_eq_decide.mpr eq_comm]
      | _ => exact decide_eq_decide.mpr eq_comm
  | layer a v =>
      cases w with
      | layer b w => rw [same, same, same_comm v w, decide_eq_decide.mpr eq_comm]
      | _ => exact decide_eq_decide.mpr eq_comm
  | handle a s v =>
      cases w with
      | handle b t w =>
          have haddr : decide (a = b) = decide (b = a) := decide_eq_decide.mpr eq_comm
          have htag : decide (s = t) = decide (t = s) := decide_eq_decide.mpr eq_comm
          rw [same, same, same_comm v w, haddr, htag]
      | _ => exact decide_eq_decide.mpr eq_comm

theorem sameElements_comm (vs ws : List Value) : sameElements vs ws = sameElements ws vs := by
  match vs, ws with
  | [], [] => rfl
  | [], _ :: _ => rfl
  | _ :: _, [] => rfl
  | v :: vs, w :: ws => rw [sameElements, sameElements, same_comm v w, sameElements_comm vs ws]

end

/-- Values that are the same are the same behind a layer. -/
theorem same_boxed {v w : Value} (h : v.same w = true) (block block' : Nat) :
    (v.boxed block).same (w.boxed block') = true := by
  simp [boxed, same, h]

end Value

/-! ## Items that are stored again -/

/-- The content of a value is not a layer and not a union of a wrapper type. -/
def Value.Bare (wrappers : List Tag) (v : Value) : Prop := v.type.isWrapper wrappers = false

/-- A bare value is the same as what is stored for an item that equals its content. -/
theorem Value.same_ofItem {wrappers : List Tag} {v : Value} (hv : v.Bare wrappers) {item : Item}
    (h : v.content.same item = true) (block : Nat) :
    v.same (Value.ofItem wrappers block item) = true := by
  cases v with
  | scalar addr x =>
      cases item with
      | datum d =>
          cases d with
          | scalar y => simpa [ofItem, Datum.storedAt, same] using .inr h
          | list ws => cases h
      | _ => cases h
  | list addr vs =>
      cases item with
      | datum d =>
          cases d with
          | scalar y => cases h
          | list ws => simpa [ofItem, Datum.storedAt, same] using .inr h
      | _ => cases h
  | layer addr v => cases hv
  | handle addr tag inner =>
      cases item with
      | union u =>
          have htag : tag ∉ wrappers := by
            simpa [Bare, type, content, Item.type, ItemType.isWrapper] using hv
          obtain ⟨rfl, hsame⟩ : tag = u.tag ∧ inner.same u.inner = true := by
            simpa [content, Item.same, Union.same] using h
          simp [ofItem, htag, same, hsame]
      | _ => cases h

namespace World

variable {C P : Type} (w : World C P)

/-- The terminal value of a value is bare in a world. -/
def Stores (v : Value) : Prop := v.terminal.Bare w.wrappers

/-- The values inside an item are stored in a world. -/
def StoresInside : Item → Prop
  | .datum _ => True
  | .union u => w.Stores u.inner
  | .value v => w.Stores v
  | .layer v => w.Stores v

/-- Whatever is put into a world is stored there. -/
theorem stores_ofItem {item : Item} (h : w.StoresInside item) (block : Nat) :
    w.Stores (Value.ofItem w.wrappers block item) := by
  cases item with
  | datum d => cases d <;> rfl
  | union u =>
      by_cases htag : u.tag ∈ w.wrappers
      · rw [Value.ofItem, if_pos htag]
        exact h
      · rw [Value.ofItem, if_neg htag]
        exact decide_eq_false htag
  | value v => exact h
  | layer v => exact h

end World

end CaseUnion
