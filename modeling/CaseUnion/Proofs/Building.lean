import CaseUnion.Proofs.RoundTrip

/-!
# What handles build

`Case.Builds` lists what the handle of a case may build of an item in a world at rest, with what it
has checked, and `Case.builds_of_run_wrap` says that there is nothing else.  The handle of a custom
cast also builds of a value, and only of one that it casts (`Case.of_run_wrapValue`).

A handle asks no registry.  It checks no more than its guard, and a custom cast.  So the terminal
value of what it builds is that of what it is given, or of the literal it holds.
-/

namespace CaseUnion.Case

variable {C P : Type} {w : World C P} {μ : Meaning C P} {block : Nat} {c : Case C P}

/-- The union that a handle builds of an item, and what it has checked. -/
inductive Builds (w : World C P) (μ : Meaning C P) (block : Nat) (c : Case C P) :
    Item → Union → Prop
  | literal {expected : Item} (hc : c.recogniser = .literal expected) (given : Item) :
      Builds w μ block c given ⟨c.tag, Value.ofItem w.wrappers block expected⟩
  | ofType {type : ItemType} {guard : Option P} (hc : c.recogniser = .ofType type guard)
      {item : Item} (htype : item.type = type) (hguard : μ.guards guard item = true) :
      Builds w μ block c item ⟨c.tag, Value.ofItem w.wrappers block item⟩
  | byCast {cast : C} {guard : Option P} (hc : c.recogniser = .byCast cast guard) {item : Item}
      (hcast : (c.cast (Host.ofWorld w μ block)
        (Value.ofItem w.wrappers block item).terminal).run.isSome = true) :
      Builds w μ block c item ⟨c.tag, (Value.ofItem w.wrappers block item).terminal⟩
  | nested {child : RegistryId} {guard : Option P} (hc : c.recogniser = .nested child guard)
      {inner : Union} (hguard : μ.guards guard (.union inner) = true) :
      Builds w μ block c (.union inner) ⟨c.tag, inner.toValue block⟩

/-- A custom cast wraps the terminal value of a value that it casts, and no other case wraps a
value. -/
theorem of_run_wrapValue {v : Value} {u : Union}
    (h : (c.wrapValue (Host.ofWorld w μ block) v).run = some u) :
    (∃ cast guard, c.recogniser = .byCast cast guard) ∧
      (c.cast (Host.ofWorld w μ block) v.terminal).run.isSome = true ∧
      u = ⟨c.tag, v.terminal⟩ := by
  cases hc : c.recogniser with
  | byCast cast guard => exact ⟨⟨cast, guard, rfl⟩, (run_wrapValue_byCast_iff hc).mp h⟩
  | _ => simp [wrapValue, hc] at h

/-- A handle builds nothing else. -/
theorem builds_of_run_wrap {item : Item} {u : Union}
    (h : (c.wrap (Host.ofWorld w μ block) item).run = some u) : c.Builds w μ block item u := by
  cases hc : c.recogniser with
  | literal expected =>
      rw [run_wrap_literal hc] at h
      cases h
      exact .literal hc item
  | ofType type guard =>
      obtain ⟨htype, hguard, rfl⟩ := (run_wrap_ofType_iff hc).mp h
      exact .ofType hc htype hguard
  | byCast cast guard =>
      simp only [wrap, hc] at h
      obtain ⟨-, hcast, rfl⟩ :=
        of_run_wrapValue (v := Value.ofItem w.wrappers block item) h
      exact .byCast hc hcast
  | nested child guard =>
      cases item with
      | union inner =>
          obtain ⟨hguard, rfl⟩ := (run_wrap_nested_iff hc).mp h
          exact .nested hc hguard
      | _ =>
          simp only [wrap, hc] at h
          cases h

end CaseUnion.Case
