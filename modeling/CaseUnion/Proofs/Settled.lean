import CaseUnion.Proofs.Admission

/-!
# Settled unions

A union is *settled* in a registry if it is equal to what the registry itself wraps its terminal
value in, and predicates treat the two alike (`World.Settled`).  A nested case matches what it makes
of a settled union that its guard accepts (`World.Settled.accepts`).

For predicates that do not tell where the layers of a union are stored, equality is enough
(`World.Reachable.settled`).  Equal unions have as many layers, since values that exist cannot share
an address with values of another height.

A union that a registry has wrapped under a nested case keeps what the nested registry wraps its
terminal value in (`World.WrapsUnder.exists_kept`).
-/

namespace CaseUnion

variable {C P : Type}

/-! ## Layers, wherever they are stored -/

namespace Value

/-- Values that are made and are the same have as many layers. -/
theorem Made.height_eq_of_same {v w : Value} (hv : v.Made) (hw : w.Made)
    (hsame : v.same w = true) : v.height = w.height := by
  induction hv generalizing w with
  | scalar block content =>
      cases hw with
      | scalar => rfl
      | list => rfl
      | layer block' hw => simp [same, addr] at hsame
  | list block helements =>
      cases hw with
      | scalar => rfl
      | list => rfl
      | layer block' hw => simp [same, addr] at hsame
  | @layer block v hv ih =>
      cases hw with
      | scalar => simp [same, addr] at hsame
      | list => simp [same, addr] at hsame
      | @layer block' w hw =>
          rw [same, Bool.or_eq_true] at hsame
          rcases hsame with haddr | hinner
          · have hoffset := congrArg Address.offset (of_decide_eq_true haddr)
            exact hoffset
          · exact congrArg (· + 1) (ih hw hinner)

end Value

/-- Predicates do not tell where the layers of a union are stored. -/
def Meaning.Oblivious (μ : Meaning C P) : Prop :=
  ∀ (predicate : P) (tag : Tag) (v w : Value), v.height = w.height → v.terminal = w.terminal →
    μ.holds predicate (.union ⟨tag, v⟩) = μ.holds predicate (.union ⟨tag, w⟩)

namespace Meaning.Oblivious

variable {μ : Meaning C P} (h : μ.Oblivious)

include h

theorem holds_eq (predicate : P) {u u' : Union} (htag : u.tag = u'.tag)
    (hheight : u.inner.height = u'.inner.height) (hterminal : u.terminal = u'.terminal) :
    μ.holds predicate (.union u) = μ.holds predicate (.union u') := by
  obtain ⟨tag, v⟩ := u
  obtain ⟨tag', v'⟩ := u'
  cases htag
  exact h predicate tag v v' hheight hterminal

/-- Then they are blind to all blocks. -/
theorem blind (terminal : Value) : μ.Blind Set.univ terminal := by
  intro b _ b' _ predicate outline
  exact h predicate outline.tag _ _ (by simp) (by simp)

end Meaning.Oblivious

/-! ## What a registry would wrap itself -/

namespace World

/-- A union is equal to what the registry itself wraps its terminal value in, and predicates treat
the two alike. -/
structure Settled (w : World C P) (μ : Meaning C P) (blocks : Set Nat) (id : RegistryId)
    (u : Union) : Prop where
  blind : μ.Blind blocks u.terminal
  exists_own : ∃ b ∈ blocks, ∃ own,
    ((Host.ofWorld w μ b).wrapValue id u.terminal).run = some own ∧
    own.tag = u.tag ∧ u.same own = true ∧
    ∀ predicate, μ.holds predicate (.union u) = μ.holds predicate (.union own)

variable {w : World C P} {μ : Meaning C P} {blocks : Set Nat} {id : RegistryId} {c : Case C P}
  {child : RegistryId} {guard : Option P} {u : Union}

/-- Predicates that do not tell where layers are stored treat a union like what it is equal to. -/
theorem Reachable.settled (hw : w.Reachable) (hμ : μ.Oblivious) {b : Nat} (hmade : u.inner.Made)
    {own : Union} (hown : ((Host.ofWorld w μ b).wrapValue id u.terminal).run = some own)
    (htag : own.tag = u.tag) (hsame : u.same own = true) : w.Settled μ Set.univ id u := by
  have hterminal : own.terminal = u.terminal := by
    rw [hw.sound.terminal_of_wrapValue hown, Union.terminal, Value.terminal_terminal]
  have hunmemoised := hown
  rw [hw.sound.wrapValue_eq_unmemoised] at hunmemoised
  have hown' : own.inner.Made := (hw.made_of_unmemoised hmade.terminal.terminal hunmemoised).2
  have hheight := hmade.height_eq_of_same hown' hsame
  refine ⟨hμ.blind _, b, Set.mem_univ b, own, hown, htag, hsame, fun predicate => ?_⟩
  exact hμ.holds_eq predicate htag.symm hheight hterminal.symm

/-- A case matches what it makes of a settled union that its guard accepts. -/
theorem Settled.accepts (hw : w.Sound) (hrecogniser : c.recogniser = .nested child guard)
    {final : Union} (h : w.Settled μ blocks child final)
    (hguard : μ.guards guard (.union final) = true) {b : Nat} (hb : b ∈ blocks) (block : Nat) :
    (c.accepts (Host.ofWorld w μ b) ⟨c.tag, final.toValue block⟩).run = true := by
  obtain ⟨wrapping, hwrapping, own, hown, -, -, hholds⟩ := h.exists_own
  have hpeeled : μ.Blind blocks final.terminal.terminal := by
    rw [Union.terminal, Value.terminal_terminal]
    exact h.blind
  obtain ⟨own', hown', hguards⟩ := hw.exists_wrapValue_in hpeeled hwrapping hb hown
  refine (Case.run_accepts_nested_iff hrecogniser).mpr ⟨own', hown', ?_⟩
  rw [hguards, ← hguard]
  exact (congrArg guard.all (funext hholds)).symm

/-- The case that tells of a union is the one that it was wrapped under. -/
theorem Reachable.exists_wrapsUnder_of_which (hw : w.Reachable) (hc : c ∈ (w.registry id).cases)
    (hblind : μ.Blind blocks u.terminal) {wrapping asking : Nat} (hwrapping : wrapping ∈ blocks)
    (hasking : asking ∈ blocks) {v : Value}
    (hwrap : ((Host.ofWorld w μ wrapping).wrapValue id v).run = some u)
    (hwhich : ((Host.ofWorld w μ asking).which id u).run = some c.info) :
    ∃ item, w.WrapsUnder hw.sound μ wrapping id v u c item := by
  obtain ⟨d, item, h⟩ := hw.sound.exists_wrapsUnder (lt_size_of_mem_cases hc) hwrap
  have hterminal := hw.sound.terminal_of_wrapValue hwrap
  have htold := h.which_eq hterminal (hterminal ▸ hblind) hwrapping hasking
  have hordinal : d.ordinal = c.ordinal :=
    congrArg CaseInfo.ordinal (Option.some.inj (htold.symm.trans hwhich))
  obtain rfl : d = c :=
    List.inj_on_of_nodup_map (hw.sound.ordered id).nodup_ordinals h.mem hc hordinal
  exact ⟨item, h⟩

/-- A union that was wrapped under a nested case keeps what the nested registry wraps its terminal
value in. -/
theorem WrapsUnder.exists_kept {hw : w.Sound} {wrapping : Nat} {v : Value} {item : Item}
    (h : w.WrapsUnder hw μ wrapping id v u c item)
    (hrecogniser : c.recogniser = .nested child guard) :
    ∃ kept, ((Host.ofWorld w μ wrapping).wrapValue child u.terminal).run = some kept ∧
      μ.guards guard (.union kept) = true ∧ u.inner = kept.toValue wrapping := by
  have hsees := h.sees
  rw [hrecogniser] at hsees
  obtain ⟨kept, hanswer, rfl, hguard⟩ := Recogniser.of_nested_sees hsees
  have hinner : u.inner = kept.toValue wrapping := by
    rw [h.union, hrecogniser]
    rfl
  refine ⟨kept, ?_, hguard, hinner⟩
  obtain ⟨outline, rfl⟩ := exists_outline_of_unmemoised hw.wellFounded hanswer
  have hterminal : u.terminal = (outline.union wrapping v.terminal).terminal := by
    rw [Union.terminal, hinner]
    rfl
  rw [hw.wrapValue_eq_unmemoised, hterminal, Outline.terminal_union, Value.terminal_terminal,
    Value.terminal_terminal, hanswer]

/-- Two wraps of one value in a registry keep the same, up to the blocks. -/
theorem Sound.same_of_wrapValue (hw : w.Sound) {v : Value} (hblind : μ.Blind blocks v.terminal)
    {b b' : Nat} (hb : b ∈ blocks) (hb' : b' ∈ blocks) {own own' : Union}
    (hown : ((Host.ofWorld w μ b).wrapValue id v).run = some own)
    (hown' : ((Host.ofWorld w μ b').wrapValue id v).run = some own') :
    own.inner.same own'.inner = true ∧
      ∀ guard, μ.guards guard (.union own) = μ.guards guard (.union own') := by
  rw [hw.wrapValue_eq_unmemoised] at hown hown'
  obtain ⟨outline, rfl, houtline⟩ := exists_outline_in hw.wellFounded hblind hb hb' hown
  cases houtline.symm.trans hown'
  exact ⟨v.terminal.same_layered b b' outline.layers, fun guard =>
    hblind.guards_eq hb hb' guard outline⟩

end World

end CaseUnion
