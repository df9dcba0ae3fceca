import CaseUnion.Proofs.Belonging

/-!
# What a guarded nested case admits and what it matches

The handle of a nested case builds of any union that its guard accepts.  When it is asked whether it
matches, it does not read the layers of the union.  It has its registry wrap the terminal value anew
and asks the guard about that (`Case.cast_nested`).  So it admits and matches by two different
unions, and may refuse to match what it has admitted: the registry may wrap the terminal value under
an earlier case, or not at all (`World.overlapping_admits_unmatched`).

What has been admitted is matched if and only if the guard accepts the registry's own wrap of the
terminal value (`World.Reachable.matches_admitted_iff`).  A union that the registry itself has made
is such a wrap.  A union that a handle of the registry has made has the terminal value of one.
-/

namespace CaseUnion

variable {C P : Type}

/-! ## What a nested case sees -/

namespace Case

variable {c : Case C P} {child : RegistryId} {guard : Option P}

section Monads

variable {m : Type → Type} [Monad m] [LawfulMonad m] (host : Host C P m)

/-- A nested case has its registry wrap a value, and checks what comes back. -/
theorem cast_nested (hc : c.recogniser = .nested child guard) (v : Value) :
    c.cast host v = (do
      let answer ← host.wrapValue child v
      host.checked (guard.map .custom) (answer.map .union)) := by
  simp only [cast, Host.wrapValue, Host.walk, Host.see, hc, Recogniser.source, Recogniser.check?,
    bind_assoc, pure_bind]
  refine bind_congr fun block => ?_
  simp [StateT.run'_eq]

/-- A nested case sees in a union what its registry wraps the terminal value in, if that passes the
guard. -/
theorem unwrap_nested (hc : c.recogniser = .nested child guard) (u : Union) :
    c.unwrap host u = (do
      match ← host.wrapValue child u.terminal with
      | none => return none
      | some own =>
        if ← host.accepts guard (.union own) then return some (.union own) else return none) := by
  rw [unwrap, cast_nested host hc]
  refine bind_congr fun answer => ?_
  cases answer <;> rfl

/-- Then it matches the union. -/
theorem accepts_nested (hc : c.recogniser = .nested child guard) (u : Union) :
    c.accepts host u = (do
      match ← host.wrapValue child u.terminal with
      | none => return false
      | some own => host.accepts guard (.union own)) := by
  rw [accepts, unwrap_nested host hc, bind_assoc]
  refine bind_congr fun answer => ?_
  cases answer with
  | none => simp
  | some own =>
      have hlast : ∀ accepted : Bool,
          ((if accepted then pure (some (Item.union own)) else pure none : m (Option Item))
            >>= fun seen => pure seen.isSome) = pure accepted := by
        rintro (_ | _) <;> simp
      simp only [bind_assoc, hlast, bind_pure]

end Monads

/-- In a world at rest it is a matter of the terminal value alone. -/
theorem run_accepts_nested_iff {w : World C P} {μ : Meaning C P} {block : Nat}
    (hc : c.recogniser = .nested child guard) {u : Union} :
    (c.accepts (Host.ofWorld w μ block) u).run = true
      ↔ ∃ own, ((Host.ofWorld w μ block).wrapValue child u.terminal).run = some own ∧
          μ.guards guard (.union own) = true := by
  have hrun : (c.accepts (Host.ofWorld w μ block) u).run
      = ((Host.ofWorld w μ block).wrapValue child u.terminal).run.any
          fun own => μ.guards guard (.union own) := by
    rw [accepts_nested _ hc, Id.run_bind]
    cases ((Host.ofWorld w μ block).wrapValue child u.terminal).run with
    | none => rfl
    | some own => exact run_accepts guard (.union own)
  rw [hrun, Option.any_eq_true]

end Case

namespace World

/-! ## What is admitted and what is matched -/

section Admitted

variable {w : World C P} {μ : Meaning C P} {blocks : Set Nat}

/-- A guarded nested case admits a union that its guard accepts, and puts one layer around it.  It
matches what it has made if and only if its guard accepts the registry's own wrap of the terminal
value, too.  So it matches if the registry itself has made the union that was admitted.  If a handle
of the registry has made that, there is such a wrap. -/
theorem Reachable.matches_admitted_iff (hw : w.Reachable) {admitting testing wrapping : Nat}
    (htesting : testing ∈ blocks) (hwrapping : wrapping ∈ blocks) {c : Case C P}
    {child : RegistryId} {predicate : P}
    (hrecogniser : c.recogniser = .nested child (some predicate)) {given u : Union}
    (hadmitted : (c.wrap (Host.ofWorld w μ admitting) (.union given)).run = some u ∨
      (c.rewrap (Host.ofWorld w μ admitting) given).run = some u)
    (hblind : μ.Blind blocks given.terminal) :
    μ.holds predicate (.union given) = true ∧
    u = ⟨c.tag, given.toValue admitting⟩ ∧
    ((c.accepts (Host.ofWorld w μ testing) u).run = true
      ↔ ∃ own, ((Host.ofWorld w μ wrapping).wrapValue child given.terminal).run = some own ∧
          μ.holds predicate (.union own) = true) ∧
    (∀ b ∈ blocks, ∀ v, ((Host.ofWorld w μ b).wrapValue child v).run = some given →
      (c.accepts (Host.ofWorld w μ testing) u).run = true) ∧
    (w.NamesNoUnions → ∀ maker, w.UnionOf μ blocks child maker given →
        ∃ own, ((Host.ofWorld w μ wrapping).wrapValue child given.terminal).run = some own) := by
  rw [Case.rewrap_nested _ hrecogniser, or_self,
    Case.run_wrap_nested_iff hrecogniser] at hadmitted
  obtain ⟨hguard, rfl⟩ := hadmitted
  have hpeeled : μ.Blind blocks given.terminal.terminal := by
    rwa [Union.terminal, Value.terminal_terminal]
  have hmatches : (c.accepts (Host.ofWorld w μ testing) ⟨c.tag, given.toValue admitting⟩).run = true
      ↔ _ := Case.run_accepts_nested_iff hrecogniser
  have htransfer : ∀ b ∈ blocks, ∀ b' ∈ blocks,
      (∃ own, ((Host.ofWorld w μ b).wrapValue child given.terminal).run = some own ∧
        μ.guards (some predicate) (.union own) = true) →
      ∃ own, ((Host.ofWorld w μ b').wrapValue child given.terminal).run = some own ∧
        μ.guards (some predicate) (.union own) = true := by
    rintro b hb b' hb' ⟨own, hown, hpasses⟩
    obtain ⟨own', hown', hguards⟩ := hw.sound.exists_wrapValue_in hpeeled hb hb' hown
    exact ⟨own', hown', (hguards _).trans hpasses⟩
  refine ⟨hguard, rfl, hmatches.trans
    ⟨htransfer _ htesting _ hwrapping, htransfer _ hwrapping _ htesting⟩, fun b hb v hwrap => ?_,
    fun hnames maker h => h.exists_wrapValue_terminal hw hnames hblind hwrapping⟩
  obtain ⟨own, hown, hguards⟩ := hw.sound.exists_wrapValue_terminal hblind hb htesting hwrap
  exact hmatches.mpr ⟨own, hown, (hguards _).trans hguard⟩

end Admitted

/-! ## Two ways to wrap a number -/

/-- A number. -/
def five : Value := .scalar ⟨5, 0⟩ (.int32 5)

/-- A union of the registry `Mixed`, made by the handle of its second case. -/
def deepFive : Union := ⟨⟨"mixed"⟩, .layer ⟨6, 1⟩ five⟩

/-- For every union a predicate, to be equal to it. -/
def equality : Meaning Empty Union := ⟨nofun, fun given item => item.same (.union given)⟩

/-- A registry that wraps numbers itself, and after that has a nested registry wrap them.  It is
nested in turn, for one union alone. -/
def overlapping : World Empty Union :=
  ([.create "Number" .matching ⟨"number"⟩, .create "Mixed" .matching ⟨"mixed"⟩,
    .create "Outer" .matching ⟨"outer"⟩, .register 0 "int" (.ofType (.datum .int32) none),
    .register 1 "plain" (.ofType (.datum .int32) none), .register 1 "deep" (.nested 0 none),
    .register 2 "only" (.nested 1 (some deepFive))] :
      List (Operation Empty Union)).foldl Operation.apply {}

/-- The world, written out. -/
theorem overlapping_eq :
    overlapping = {
      registries := [
        { label := "Number", flavor := .matching, tag := ⟨"number"⟩,
          cases := [⟨"Number", "int", 0, ⟨"number"⟩, .ofType (.datum .int32) none⟩],
          places := (∅ : Std.TreeMap String Nat).insert "int" 0 },
        { label := "Mixed", flavor := .matching, tag := ⟨"mixed"⟩,
          cases := [⟨"Mixed", "plain", 0, ⟨"mixed"⟩, .ofType (.datum .int32) none⟩,
            ⟨"Mixed", "deep", 1, ⟨"mixed"⟩, .nested 0 none⟩],
          places := ((∅ : Std.TreeMap String Nat).insert "plain" 0).insert "deep" 1 },
        { label := "Outer", flavor := .matching, tag := ⟨"outer"⟩,
          cases := [⟨"Outer", "only", 0, ⟨"outer"⟩, .nested 1 (some deepFive)⟩],
          places := (∅ : Std.TreeMap String Nat).insert "only" 0 }]
      wrappers := [⟨"outer"⟩, ⟨"mixed"⟩, ⟨"number"⟩] } := by
  cbv

theorem overlapping_reachable : overlapping.Reachable := by
  refine .step (.step (.step (.step (.step (.step (.step .start
    (.create ..) trivial) (.create ..) trivial) (.create ..) trivial) (.register ..) ?_)
    (.register ..) ?_) (.register ..) ?_) (.register ..) ?_
  all_goals
    intro child h
    cases h
  all_goals exact ⟨by cbv, by cbv⟩

/-- The handles of `Mixed` make the union. -/
theorem unionOf_deepFive (μ : Meaning Empty Union) :
    overlapping.UnionOf μ Set.univ 1 (some ⟨"Mixed", "deep", 1, ⟨"mixed"⟩, .nested 0 none⟩)
      deepFive := by
  have hnumber : overlapping.UnionOf μ Set.univ 0
      (some ⟨"Number", "int", 0, ⟨"number"⟩, .ofType (.datum .int32) none⟩)
      ⟨⟨"number"⟩, five⟩ := by
    have hc : ⟨"Number", "int", 0, ⟨"number"⟩, .ofType (.datum .int32) none⟩
        ∈ (overlapping.registry 0).cases := by
      rw [overlapping_eq]
      exact List.mem_cons_self ..
    have hwrap : (Case.wrap (Host.ofWorld overlapping μ 5)
        ⟨"Number", "int", 0, ⟨"number"⟩, .ofType (.datum .int32) none⟩ (.ofScalar (.int32 5))).run
        = some ⟨⟨"number"⟩, five⟩ := rfl
    exact .built (Set.mem_univ 5) hc rfl nofun hwrap
  refine .nested (Set.mem_univ 6) ?_ rfl hnumber (.inl rfl) rfl
  rw [overlapping_eq]
  exact .tail _ (.head _)

/-- The case `only` admits the union that the handles of `Mixed` make, and makes a union that it
does not match: `Mixed` itself wraps the number under its first case. -/
theorem overlapping_admits_unmatched :
    let c : Case Empty Union := ⟨"Outer", "only", 0, ⟨"outer"⟩, .nested 1 (some deepFive)⟩
    let host := Host.ofWorld overlapping equality
    let u : Union := ⟨⟨"outer"⟩, .layer ⟨7, 2⟩ deepFive.inner⟩
    overlapping.Reachable ∧ c ∈ (overlapping.registry 2).cases ∧
      overlapping.UnionOf equality Set.univ 1
        (some ⟨"Mixed", "deep", 1, ⟨"mixed"⟩, .nested 0 none⟩) deepFive ∧
      (c.wrap (host 7) (.union deepFive)).run = some u ∧
      (c.rewrap (host 7) deepFive).run = some u ∧
      (c.accepts (host 8) u).run = false := by
  intro c host u
  have hc : c ∈ (overlapping.registry 2).cases := by
    rw [overlapping_eq]
    exact List.mem_cons_self ..
  have hmatches : (c.accepts (host 8) u).run = false := by
    unfold host
    rw [overlapping_eq]
    decide +kernel
  exact ⟨overlapping_reachable, hc, unionOf_deepFive equality, by rfl, by rfl, hmatches⟩

/-- Where the guard accepts every union, the case matches what it has admitted.  `Mixed` still wraps
the number in another union than the one that was admitted. -/
theorem overlapping_matches_admitted :
    let μ : Meaning Empty Union := ⟨nofun, fun _ _ => true⟩
    let c : Case Empty Union := ⟨"Outer", "only", 0, ⟨"outer"⟩, .nested 1 (some deepFive)⟩
    let host := Host.ofWorld overlapping μ
    let u : Union := ⟨⟨"outer"⟩, .layer ⟨7, 2⟩ deepFive.inner⟩
    (c.wrap (host 7) (.union deepFive)).run = some u ∧
      μ.Blind Set.univ deepFive.terminal ∧
      ((host 9).wrapValue 1 deepFive.terminal).run = some ⟨⟨"mixed"⟩, five⟩ ∧
      (c.accepts (host 8) u).run = true := by
  intro μ c host u
  have hwrap : (c.wrap (host 7) (.union deepFive)).run = some u := rfl
  have hblind : μ.Blind Set.univ deepFive.terminal := fun _ _ _ _ _ _ => rfl
  have hown : ((host 9).wrapValue 1 deepFive.terminal).run = some ⟨⟨"mixed"⟩, five⟩ := by
    unfold host
    rw [overlapping_eq]
    rfl
  obtain ⟨-, -, hmatches, -⟩ := overlapping_reachable.matches_admitted_iff (Set.mem_univ 8)
    (Set.mem_univ 9) (c := c) rfl (.inl hwrap) hblind
  exact ⟨hwrap, hblind, hown, hmatches.mpr ⟨_, hown, rfl⟩⟩

end World

end CaseUnion
