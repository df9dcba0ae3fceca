import CaseUnion.Proofs.Building
import CaseUnion.Proofs.Reentry
import CaseUnion.Proofs.Registration

/-!
# What a program has at hand

A program works in a world.  It carries out operations, and it makes items from those that it has:
it stores an item, takes the content out of a value, wraps a value, asks a handle what it sees.
`Execution` is such a course of events, with the world and the items at hand at its end.  Each item
is made in a block of its own.

Nothing of this makes a value that stores a union as it is.  The union would have to be of a type
that is no wrapper type, but a union is made by a registry of its tag or by a handle of one, and
that registry made the type of its unions a wrapper type when it was created.  So every value at
hand is *made* in the sense of `Value.Made` (`Execution.made`): layers around a scalar or a list,
and nothing else inside.  Its terminal value has the type of a datum (`Value.Made.exists_type_eq`).
-/

namespace CaseUnion

variable {C P : Type}

/-! ## Values that are made -/

/-- A scalar, a list of values that are made, or a layer around such a value.  Its offset in its
block is the number of its layers. -/
inductive Value.Made : Value → Prop
  | scalar (block : Nat) (content : Scalar) : Made (.scalar ⟨block, 0⟩ content)
  | list (block : Nat) {elements : List Value} (h : ∀ v ∈ elements, Made v) :
      Made (.list ⟨block, 0⟩ elements)
  | layer (block : Nat) {v : Value} (h : Made v) : Made (.layer ⟨block, v.height + 1⟩ v)

/-- An item whose values are made and whose union is of a wrapper type. -/
def Item.Made (wrappers : List Tag) : Item → Prop
  | .datum (.scalar _) => True
  | .datum (.list elements) => ∀ v ∈ elements, v.Made
  | .union u => u.tag ∈ wrappers ∧ u.inner.Made
  | .value v => v.Made
  | .layer v => v.Made

/-- What is made stays so when more types become wrapper types. -/
theorem Item.Made.mono {wrappers wrappers' : List Tag} (hsub : wrappers ⊆ wrappers') {item : Item}
    (h : item.Made wrappers) : item.Made wrappers' := by
  cases item with
  | datum d => cases d <;> exact h
  | union u => exact ⟨hsub h.1, h.2⟩
  | value v => exact h
  | layer v => exact h

namespace Value

variable {v w : Value}

theorem Made.boxed (h : v.Made) (block : Nat) : (v.boxed block).Made := .layer block h

theorem Made.layered (h : v.Made) (block layers : Nat) : (v.layered block layers).Made := by
  induction layers with
  | zero => exact h
  | succ layers ih => exact ih.boxed block

theorem Made.terminal (h : v.Made) : v.terminal.Made := by
  induction h with
  | scalar block content => exact .scalar block content
  | list block h => exact .list block h
  | layer block _ ih => exact ih

/-- The content of a value that is made is made, and is no union. -/
theorem Made.content (h : v.Made) (wrappers : List Tag) : v.content.Made wrappers := by
  cases h with
  | scalar => trivial
  | list block h => exact h
  | layer block h => exact h

/-- The terminal value of a value that is made stores a datum. -/
theorem Made.exists_type_eq (h : v.Made) : ∃ type, v.terminal.type = .datum type := by
  induction h with
  | scalar block content => exact ⟨content.type, rfl⟩
  | list => exact ⟨.list, rfl⟩
  | layer block _ ih => exact ih

/-- What is stored for an item that is made is made. -/
theorem made_ofItem {wrappers : List Tag} {item : Item} (h : item.Made wrappers) (block : Nat) :
    (Value.ofItem wrappers block item).Made := by
  cases item with
  | datum d =>
      cases d with
      | scalar s => exact .scalar block s
      | list vs => exact .list block h
  | union u =>
      rw [ofItem, if_pos h.1]
      exact h.2.boxed block
  | value v => exact h
  | layer v => exact Made.boxed h block

end Value

/-! ## Programs -/

/-- The literal that a recogniser holds. -/
def Recogniser.literal? : Recogniser C P → Option Item
  | literal expected => some expected
  | ofType .. | byCast .. | nested .. => none

/-- The literal that an operation gives to a new case. -/
def Operation.literal? : Operation C P → Option Item
  | register _ _ recogniser => recogniser.literal?
  | create .. | sealRegistry _ => none

/-- An item that is made in one step, in a block, from items at hand in a world.

A custom cast is a part of the program.  What it gives it has made by such steps, so there is none
for it. -/
inductive Makes (μ : Meaning C P) (w : World C P) (items : List Item) (block : Nat) : Item → Prop
  | scalar (content : Scalar) : Makes μ w items block (.ofScalar content)
  | list {elements : List Value} (h : ∀ v ∈ elements, .value v ∈ items) :
      Makes μ w items block (.datum (.list elements))
  | element {elements : List Value} {v : Value} (h : .datum (.list elements) ∈ items)
      (hv : v ∈ elements) : Makes μ w items block (.value v)
  | stored {item : Item} (h : item ∈ items) :
      Makes μ w items block (.value (Value.ofItem w.wrappers block item))
  | content {v : Value} (h : .value v ∈ items) : Makes μ w items block v.content
  /-- A layer around a value, outside any value. -/
  | layer {v : Value} (h : .value v ∈ items) : Makes μ w items block (.layer v)
  | inner {v : Value} (h : .layer v ∈ items) : Makes μ w items block (.value v)
  /-- The layer of a union, its tag forgotten. -/
  | untagged {u : Union} (h : .union u ∈ items) : Makes μ w items block (.layer u.inner)
  | wrapped {id : RegistryId} {v : Value} {u : Union} (h : .value v ∈ items)
      (hwrap : ((Host.ofWorld w μ block).wrapValue id v).run = some u) :
      Makes μ w items block (.union u)
  | seen {id : RegistryId} {c : Case C P} {v : Value} {item : Item}
      (hc : c ∈ (w.registry id).cases)
      (hsource : ∀ cast, c.recogniser.source ≠ .cast (.custom cast)) (h : .value v ∈ items)
      (hcast : (c.cast (Host.ofWorld w μ block) v).run = some item) : Makes μ w items block item
  | built {id : RegistryId} {c : Case C P} {given : Item} {u : Union}
      (hc : c ∈ (w.registry id).cases) (h : given ∈ items)
      (hwrap : (c.wrap (Host.ofWorld w μ block) given).run = some u) :
      Makes μ w items block (.union u)
  | builtOfValue {id : RegistryId} {c : Case C P} {v : Value} {u : Union}
      (hc : c ∈ (w.registry id).cases) (h : .value v ∈ items)
      (hwrap : (c.wrapValue (Host.ofWorld w μ block) v).run = some u) :
      Makes μ w items block (.union u)

/-- A program has come to a world with items at hand, and the next block is new.  A literal that it
gives to a case is one that it has at hand. -/
inductive Execution (μ : Meaning C P) : World C P → List Item → Nat → Prop
  | start : Execution μ {} [] 0
  | operate {w : World C P} {items : List Item} {next : Nat} (h : Execution μ w items next)
      (operation : Operation C P) (hpossible : operation.Possible w)
      (hliteral : ∀ item, operation.literal? = some item → item ∈ items) :
      Execution μ (operation.apply w) items next
  | make {w : World C P} {items : List Item} {next : Nat} (h : Execution μ w items next)
      {item : Item} (hmakes : Makes μ w items next item) :
      Execution μ w (item :: items) (next + 1)

theorem Execution.reachable {μ : Meaning C P} {w : World C P} {items : List Item} {next : Nat}
    (h : Execution μ w items next) : w.Reachable := by
  induction h with
  | start => exact .start
  | operate _ operation hpossible _ ih => exact ih.step operation hpossible
  | make _ _ ih => exact ih

/-! ## What a step makes -/

section Steps

variable {μ : Meaning C P} {w : World C P} {block : Nat} {id : RegistryId} {c : Case C P}
  {v : Value} {u : Union}

/-- What a registry answers is a union of its own tag, which is that of a wrapper type. -/
theorem World.Reachable.tag_mem_of_unmemoised (hw : w.Reachable) {terminal : Value}
    (h : w.unmemoised hw.sound.wellFounded μ block terminal id = some u) : u.tag ∈ w.wrappers := by
  have hid : id < w.size := by
    by_contra hge
    rw [World.unmemoised_eq, World.registry_eq_vacant (Nat.le_of_not_lt hge)] at h
    cases h
  rw [World.unmemoised_eq, Registry.answer] at h
  obtain ⟨inner, -, rfl⟩ := Option.map_eq_some_iff.mp h
  exact (hw.mem_wrappers_iff _).mpr ⟨id, hid, rfl⟩

/-- What a registry answers has layers around the terminal value. -/
theorem World.Reachable.made_of_unmemoised (hw : w.Reachable) {terminal : Value}
    (hterminal : terminal.Made)
    (h : w.unmemoised hw.sound.wellFounded μ block terminal id = some u) :
    (Item.union u).Made w.wrappers := by
  have htag := hw.tag_mem_of_unmemoised h
  obtain ⟨outline, rfl⟩ := World.exists_outline_of_unmemoised hw.sound.wellFounded h
  exact ⟨htag, hterminal.layered block outline.layers⟩

/-- What a case sees in a value is the content of its terminal value or what a registry answers,
unless a custom cast has a hand in it. -/
theorem World.Sound.content_or_answer_of_cast (hw : w.Sound) (hc : c ∈ (w.registry id).cases)
    (hsource : ∀ cast, c.recogniser.source ≠ .cast (.custom cast)) {item : Item}
    (h : (c.cast (Host.ofWorld w μ block) v).run = some item) :
    item = v.terminal.content ∨
      ∃ child u, w.unmemoised hw.wellFounded μ block v.terminal child = some u ∧
        item = .union u := by
  rw [hw.cast_eq μ block hc v] at h
  cases hrecogniser : c.recogniser with
  | literal expected =>
      rw [hrecogniser] at h
      exact .inl (Recogniser.of_literal_sees h).1
  | ofType type guard =>
      rw [hrecogniser] at h
      exact .inl (Recogniser.of_ofType_sees h).2.1
  | byCast cast guard => exact absurd (by rw [hrecogniser]; rfl) (hsource cast)
  | nested child guard =>
      rw [hrecogniser] at h
      obtain ⟨u, hanswer, hitem, -⟩ := Recogniser.of_nested_sees h
      exact .inr ⟨child, u, hanswer, hitem⟩

/-- So it is made if the value is. -/
theorem World.Reachable.made_of_cast (hw : w.Reachable) (hc : c ∈ (w.registry id).cases)
    (hsource : ∀ cast, c.recogniser.source ≠ .cast (.custom cast)) (hv : v.Made) {item : Item}
    (h : (c.cast (Host.ofWorld w μ block) v).run = some item) : item.Made w.wrappers := by
  rcases hw.sound.content_or_answer_of_cast hc hsource h with rfl | ⟨child, u, hanswer, rfl⟩
  · exact hv.terminal.content w.wrappers
  · exact hw.made_of_unmemoised hv.terminal hanswer

/-- A handle makes unions of the tag of its registry. -/
theorem World.Reachable.tag_mem_wrappers (hw : w.Reachable) (hc : c ∈ (w.registry id).cases) :
    c.tag ∈ w.wrappers := by
  rw [hw.tag_eq hc, hw.mem_wrappers_iff]
  exact ⟨id, World.lt_size_of_mem_cases hc, rfl⟩

/-- What a handle builds of an item that is made is made, if the literal it may hold is. -/
theorem World.Reachable.made_of_wrap (hw : w.Reachable) (hc : c ∈ (w.registry id).cases)
    (hliteral : ∀ expected, c.recogniser.literal? = some expected → expected.Made w.wrappers)
    {given : Item} (hgiven : given.Made w.wrappers)
    (h : (c.wrap (Host.ofWorld w μ block) given).run = some u) :
    (Item.union u).Made w.wrappers := by
  have htag : c.tag ∈ w.wrappers := hw.tag_mem_wrappers hc
  cases Case.builds_of_run_wrap h with
  | literal hrecogniser =>
      exact ⟨htag, Value.made_ofItem (hliteral _ (by rw [hrecogniser]; rfl)) block⟩
  | ofType => exact ⟨htag, Value.made_ofItem hgiven block⟩
  | byCast => exact ⟨htag, (Value.made_ofItem hgiven block).terminal⟩
  | nested => exact ⟨htag, hgiven.2.boxed block⟩

end Steps

/-! ## What a program makes -/

/-- The items at hand are made, and so are the literals of all cases. -/
structure World.Stocked (w : World C P) (items : List Item) : Prop where
  items : ∀ item ∈ items, item.Made w.wrappers
  literals : ∀ (id : RegistryId), ∀ c ∈ (w.registry id).cases, ∀ expected,
    c.recogniser.literal? = some expected → expected.Made w.wrappers

section Programs

variable {μ : Meaning C P} {w : World C P} {items : List Item} {block : Nat} {item : Item}

/-- A step makes one more item that is made. -/
theorem Makes.made (h : Makes μ w items block item) (hw : w.Reachable) (hstock : w.Stocked items) :
    item.Made w.wrappers := by
  cases h with
  | scalar content => trivial
  | list h => exact fun v hv => hstock.items _ (h v hv)
  | element h hv => exact hstock.items _ h _ hv
  | stored h => exact Value.made_ofItem (hstock.items _ h) block
  | content h => exact Value.Made.content (hstock.items _ h) w.wrappers
  | @layer v h =>
      have hv : v.Made := hstock.items _ h
      exact hv
  | @inner v h =>
      have hv : v.Made := hstock.items _ h
      exact hv
  | untagged h => exact (hstock.items _ h).2
  | @wrapped id v u h hwrap =>
      rw [hw.sound.wrapValue_eq_unmemoised] at hwrap
      exact hw.made_of_unmemoised (Value.Made.terminal (hstock.items _ h)) hwrap
  | seen hc hsource h hcast => exact hw.made_of_cast hc hsource (hstock.items _ h) hcast
  | @built id c given u hc h hwrap =>
      exact hw.made_of_wrap hc (hstock.literals id c hc) (hstock.items _ h) hwrap
  | @builtOfValue id c v u hc h hwrap =>
      obtain ⟨-, -, rfl⟩ := Case.of_run_wrapValue hwrap
      exact ⟨hw.tag_mem_wrappers hc, Value.Made.terminal (hstock.items _ h)⟩

/-- An operation adds no case but the one that it registers. -/
theorem Operation.mem_cases_apply {operation : Operation C P} {id : RegistryId} {c : Case C P}
    (hc : c ∈ ((operation.apply w).registry id).cases) :
    c ∈ (w.registry id).cases ∨
      ∃ name, operation = .register id name c.recogniser ∧
        w.fault? id name c.recogniser = none := by
  cases operation with
  | create label flavor tag =>
      rw [apply, World.registry_create] at hc
      split at hc
      · cases hc
      · exact .inl hc
  | sealRegistry other =>
      rw [apply, World.sealRegistry, World.registry_update] at hc
      split at hc
      next heq => exact .inl (heq.1 ▸ hc)
      next => exact .inl hc
  | register other name recogniser =>
      rcases apply_register w other name recogniser with hsame | ⟨hfault, hnew⟩
      · exact .inl (hsame ▸ hc)
      · rw [hnew, World.registry_update] at hc
        split at hc
        next heq =>
          obtain ⟨rfl, -⟩ := heq
          rcases List.mem_append.mp hc with hold | hlast
          · exact .inl hold
          · rw [List.mem_singleton.mp hlast]
            exact .inr ⟨name, rfl, hfault⟩
        next => exact .inl hc

/-- No operation takes a tag from the wrapper types. -/
theorem Operation.wrappers_subset_apply (w : World C P) (operation : Operation C P) :
    w.wrappers ⊆ (operation.apply w).wrappers := by
  cases operation with
  | create label flavor tag =>
      intro other hother
      exact (World.mem_wrappers_create w label flavor tag other).mpr (.inr hother)
  | sealRegistry id => exact fun _ h => h
  | register id name recogniser =>
      rcases apply_register w id name recogniser with hsame | ⟨-, hnew⟩
      · rw [hsame]
        exact fun _ h => h
      · rw [hnew]
        exact fun _ h => h

/-- An operation keeps what is made, if its literal is. -/
theorem World.Stocked.apply (h : w.Stocked items) (operation : Operation C P)
    (hliteral : ∀ item, operation.literal? = some item → item ∈ items) :
    (operation.apply w).Stocked items where
  items item hitem := (h.items item hitem).mono (operation.wrappers_subset_apply w)
  literals id c hc expected hexpected := by
    refine Item.Made.mono (operation.wrappers_subset_apply w) ?_
    rcases Operation.mem_cases_apply hc with hold | ⟨name, rfl, -⟩
    · exact h.literals id c hold expected hexpected
    · exact h.items expected (hliteral expected hexpected)

theorem Execution.stocked {next : Nat} (h : Execution μ w items next) : w.Stocked items := by
  induction h with
  | start => exact ⟨nofun, fun _ _ hc => by cases hc⟩
  | operate _ operation _ hliteral ih => exact ih.apply operation hliteral
  | make hrun hmakes ih =>
      exact ⟨List.forall_mem_cons.mpr ⟨hmakes.made hrun.reachable ih, ih.items⟩, ih.literals⟩

/-- Every value that a program has at hand is made. -/
theorem Execution.made {next : Nat} (h : Execution μ w items next) {v : Value}
    (hv : .value v ∈ items) : v.Made :=
  h.stocked.items _ hv

end Programs

end CaseUnion
