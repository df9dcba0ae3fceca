import CaseUnion.Proofs.Descents
import CaseUnion.Proofs.Settled

/-!
# Morphing under a nested case

Whether a nested case matches after descents into it is asked in the world after them.  There the
case matches the current union if the bodies have ended with settled unions, those that the nested
registry itself would wrap (`World.Settled`).  If the guard has refused them, the union from before
has stayed, and cases that were registered in the meantime may have taken it from the case
(`World.growing_changes_morphing`).

The same goes for a body that leaves its union alone.  What it puts back is equal to what the
current union keeps, if that was wrapped under the case and the nested registry still wraps the
terminal value as it did then.
-/

namespace CaseUnion.World

open Morph (descend descendAll)

variable {C P : Type} {w : World C P} {μ : Meaning C P} {blocks : Set Nat} {id : RegistryId}
  {c : Case C P} {child : RegistryId} {guard : Option P} {u : Union}

section Descents

variable {m : Type → Type} [Monad m] [LawfulMonad m] {note : Effect C P → m Unit} {fresh : m Nat}
  {depth : Nat}

/-- A descent whose body leaves its union alone leaves a union that was wrapped under the case as it
was, up to equality.  The nested registry has to wrap the terminal value as it did then. -/
theorem Reachable.always_descend_unchanged {w₀ : World C P} (hw₀ : w₀.Reachable)
    (hc : c ∈ (w₀.registry id).cases) (hrecogniser : c.recogniser = .nested child guard)
    (hfresh : Always (· ∈ blocks) fresh) (hblind : μ.Blind blocks u.terminal)
    {wrapping asking : Nat} (hwrapping : wrapping ∈ blocks) (hasking : asking ∈ blocks) {v : Value}
    (hwrap : ((Host.ofWorld w₀ μ wrapping).wrapValue id v).run = some u)
    (hwhich : ((Host.ofWorld w₀ μ asking).which id u).run = some c.info)
    (hw : w.Sound) (hdepth : w.size ≤ depth) (hchild : child < w.size)
    (hagain : ((Host.ofWorld w μ wrapping).wrapValue child u.terminal).run
      = ((Host.ofWorld w₀ μ wrapping).wrapValue child u.terminal).run)
    (body : Morph (StateT (World C P) m) Unit) :
    Always (fun out => ∃ final, out.1.1 = some final ∧ ∀ b ∈ blocks,
        ((Host.ofWorld w μ b).wrapValue child u.terminal).run = some final →
        out.1.2.tag = u.tag ∧ out.1.2.same u = true)
      (((Morph.descend (Host.living μ note fresh depth) c child guard body).run u).run w) := by
  obtain ⟨item, h⟩ := hw₀.exists_wrapsUnder_of_which hc hblind hwrapping hasking hwrap hwhich
  obtain ⟨kept, hkept, hguard, hinner⟩ := h.exists_kept hrecogniser
  rw [← hagain] at hkept
  have hmatches : (c.accepts (Host.ofWorld w μ wrapping) u).run = true :=
    (Case.run_accepts_nested_iff hrecogniser).mpr ⟨kept, hkept, hguard⟩
  obtain ⟨start, hstart, hrun⟩ := exists_descend_of_accepts note hw hdepth hchild hrecogniser hfresh
    hblind hwrapping hmatches body
  rw [hrun]
  refine hstart.bind fun own _ => (always_trivial _).bind ?_
  rintro ⟨⟨-, final⟩, w'⟩ -
  refine (always_putBack hfresh final w').imp fun out hout => ?_
  obtain ⟨htold, -, hput⟩ := hout
  refine ⟨final, htold, fun b hb hfinal => ?_⟩
  have hpeeled : μ.Blind blocks u.terminal.terminal := by
    rwa [Union.terminal, Value.terminal_terminal]
  obtain ⟨hsame, hguards⟩ := hw.same_of_wrapValue hpeeled hb hwrapping hfinal hkept
  obtain ⟨block, -, hcurrent⟩ := hput.of_accepted ((hguards guard).trans hguard)
  rw [hcurrent]
  refine ⟨h.tag_eq (hw₀.tag_eq hc), ?_⟩
  rw [Union.same, hinner]
  exact Value.same_boxed hsame block wrapping

/-- What descents into a nested case do in programs that may change the world. -/
structure MorphsUnder (host : Host C P (StateT (World C P) m)) (μ : Meaning C P) (blocks : Set Nat)
    (c : Case C P) (child : RegistryId) (guard : Option P) : Prop where
  /-- If the case does not match the current union, it is asked whether it does, and that is all. -/
  of_not_accepts : ∀ w : World C P, w.Reachable → w.size ≤ host.depth → child < w.size →
    ∀ u, μ.Blind blocks u.terminal → ∀ testing ∈ blocks,
    (c.accepts (Host.ofWorld w μ testing) u).run = false →
    ∀ body, ((Morph.descend host c child guard body).run u).run w = (do
      let _ ← (c.accepts host u).run w
      return ((none, u), w))
  /-- If it does match, the body begins with the nested registry's own wrap of the terminal value,
  in the world as it is, and what it ends with is put back in the world that it leaves. -/
  of_accepts : ∀ w : World C P, w.Reachable → w.size ≤ host.depth → child < w.size →
    ∀ u, μ.Blind blocks u.terminal → ∀ testing ∈ blocks,
    (c.accepts (Host.ofWorld w μ testing) u).run = true →
    ∀ body, ∃ start : m Union,
      Always (fun own => μ.guards guard (.union own) = true ∧
        ∃ b ∈ blocks, ((Host.ofWorld w μ b).wrapValue child u.terminal).run = some own) start ∧
      ((Morph.descend host c child guard body).run u).run w = (do
        let own ← start
        let ((_, final), w') ← (body.run own).run w
        (Morph.putBack host c guard u final).run w')
  /-- The current union is then one layer around it if the guard accepts it, and stays if not. -/
  putBack : ∀ u final w,
    Always (fun out => out.1.1 = some final ∧ out.2 = w ∧ PutBack μ blocks c guard u final out.1.2)
      ((Morph.putBack host c guard u final).run w)
  /-- After descents whose bodies end with what the nested registry itself would wrap, the case
  matches the current union, unless that is still the one from before.  Both are asked in any one
  world, such as the world after the descents. -/
  keeps : ∀ bodies u w, Always (fun out => ∀ w' : World C P, w'.Reachable →
      (∀ final ∈ out.1.1, w'.Settled μ blocks child final) →
      out.1.2 = u ∨ ∀ b ∈ blocks, (c.accepts (Host.ofWorld w' μ b) out.1.2).run = true)
    (((Morph.descendAll host c child guard bodies).run u).run w)
  /-- If a registry has wrapped a value in the current union, under the case, and the nested
  registry still wraps the terminal value as it did then, a body that leaves its union alone leaves
  the current union equal to what it was. -/
  unchanged : ∀ w₀ : World C P, w₀.Reachable → ∀ id, c ∈ (w₀.registry id).cases →
    ∀ wrapping ∈ blocks, ∀ asking ∈ blocks, ∀ v u,
    ((Host.ofWorld w₀ μ wrapping).wrapValue id v).run = some u →
    ((Host.ofWorld w₀ μ asking).which id u).run = some c.info → μ.Blind blocks u.terminal →
    ∀ w : World C P, w.Reachable → w.size ≤ host.depth → child < w.size →
    ((Host.ofWorld w μ wrapping).wrapValue child u.terminal).run
      = ((Host.ofWorld w₀ μ wrapping).wrapValue child u.terminal).run →
    ∀ body, Always (fun out => ∃ final, out.1.1 = some final ∧ ∀ b ∈ blocks,
        ((Host.ofWorld w μ b).wrapValue child u.terminal).run = some final →
        out.1.2.tag = u.tag ∧ out.1.2.same u = true)
      (((Morph.descend host c child guard body).run u).run w)

namespace MorphsUnder

variable {host : Host C P (StateT (World C P) Id)} {after : World C P}
  (h : MorphsUnder host μ blocks c child guard)

include h

/-- What `keeps` says of one run of a plain program, if the current union has changed. -/
theorem accepts_of_run {bodies : List (Morph (StateT (World C P) Id) Unit)} {ended : List Union}
    {last : Union}
    (hrun : (((descendAll host c child guard bodies).run u).run w).run = ((ended, last), after))
    (hlast : last ≠ u) {w' : World C P} (hw' : w'.Reachable)
    (hsettled : ∀ final ∈ ended, w'.Settled μ blocks child final) {b : Nat} (hb : b ∈ blocks) :
    (c.accepts (Host.ofWorld w' μ b) last).run = true := by
  have hkeeps := always_id.mp (h.keeps bodies u w)
  rw [hrun] at hkeeps
  exact (hkeeps w' hw' hsettled).resolve_left hlast b hb

/-- What `unchanged` says of one run of a plain program in the world that has made the union. -/
theorem same_of_run (hw : w.Reachable) (hdepth : w.size ≤ host.depth) (hchild : child < w.size)
    (hc : c ∈ (w.registry id).cases) {v : Value} {b : Nat} (hb : b ∈ blocks)
    (hwrap : ((Host.ofWorld w μ b).wrapValue id v).run = some u)
    (hwhich : ((Host.ofWorld w μ b).which id u).run = some c.info)
    (hblind : μ.Blind blocks u.terminal) {body : Morph (StateT (World C P) Id) Unit}
    {own next : Union}
    (hrun : (((descend host c child guard body).run u).run w).run = ((some own, next), after))
    {b' : Nat} (hb' : b' ∈ blocks)
    (hown : ((Host.ofWorld w μ b').wrapValue child u.terminal).run = some own) :
    next.same u = true := by
  have hunchanged := always_id.mp (h.unchanged w hw id hc b hb b hb v u hwrap hwhich hblind w hw
    hdepth hchild rfl body)
  rw [hrun] at hunchanged
  obtain ⟨final, hfinal, hsame⟩ := hunchanged
  cases hfinal
  exact (hsame b' hb' hown).2

end MorphsUnder

/-- Morphing by a nested case is a descent, whatever the host and the body do, and so are several
such changes after one another.  In programs that may change the world the case keeps matching,
apart from unions that were there before and that it matches no longer, and a union that a registry
has made stays equal to itself if nothing is done to it and the nested registry still wraps its
terminal value as it did. -/
theorem morphing_keeps_case (hrecogniser : c.recogniser = .nested child guard) (μ : Meaning C P)
    (note : Effect C P → m Unit) (hfresh : Always (· ∈ blocks) fresh) (depth : Nat) :
    (∀ {n : Type → Type} [Monad n] [LawfulMonad n] (host : Host C P n),
      (∀ body, Morph.changeByMorphingCase host c body = (do
        let _ ← Morph.descend host c child guard body)) ∧
      ∀ bodies : List (Morph n Unit), bodies.forM (Morph.changeByMorphingCase host c) = (do
        let _ ← Morph.descendAll host c child guard bodies)) ∧
    MorphsUnder (Host.living μ note fresh depth) μ blocks c child guard := by
  refine ⟨fun host => ⟨fun body => Morph.changeByMorphingCase_eq host hrecogniser body,
    fun bodies => Morph.forM_changeByMorphingCase_eq host hrecogniser bodies⟩, ?_⟩
  constructor
  case of_not_accepts =>
    exact fun w hw hdepth hchild u hblind testing htesting hmatches body =>
      descend_of_not_accepts hw.sound hdepth hchild hrecogniser hfresh hblind htesting hmatches body
  case of_accepts =>
    exact fun w hw hdepth hchild u hblind testing htesting hmatches body =>
      exists_descend_of_accepts note hw.sound hdepth hchild hrecogniser hfresh hblind htesting
        hmatches body
  case putBack => exact fun u final w => always_putBack hfresh final w
  case keeps =>
    intro bodies u w
    refine (always_descendAll hfresh bodies u w).imp fun out hout w' hw' hsettled =>
      hout.imp_right ?_
    rintro ⟨final, hfinal, hguard, block, -, hcurrent⟩ b hb
    rw [hcurrent]
    exact (hsettled final hfinal).accepts hw'.sound hrecogniser hguard hb block
  case unchanged =>
    exact fun w₀ hw₀ id hc wrapping hwrapping asking hasking v u hwrap hwhich hblind w hw hdepth
      hchild hagain body => hw₀.always_descend_unchanged hc hrecogniser hfresh hblind hwrapping
        hasking hwrap hwhich hw.sound hdepth hchild hagain body

end Descents

/-! ## Two descents in the diamond -/

/-- Gives the registry at the bottom of the diamond a case for truth values. -/
def flag : Operation Empty Bool := .register 0 "flag" (.ofType (.datum .bool) none)

/-- The diamond with that case. -/
def flagged : World Empty Bool := Operation.apply diamond flag

theorem flagged_reachable : flagged.Reachable := .step diamond_reachable (.register ..) nofun

/-- The right branch wraps a number as it did before. -/
theorem flagged_wrapValue_right (block : Nat) (addr : Address) (n : Int32) :
    ((Host.ofWorld flagged constantMeaning block).wrapValue 2 (.scalar addr (.int32 n))).run
      = some ⟨⟨"right"⟩, .layer ⟨block, 1⟩ (.scalar addr (.int32 n))⟩ := by
  rw [flagged, diamond_eq]
  rfl

/-- What it has wrapped in any block is settled there. -/
theorem flagged_settled (block stored : Nat) (n : Int32) :
    flagged.Settled constantMeaning Set.univ 2
      ⟨⟨"right"⟩, .layer ⟨block, 1⟩ (.scalar ⟨stored, 0⟩ (.int32 n))⟩ :=
  flagged_reachable.settled (fun _ _ _ _ _ _ => rfl) (.layer block (.scalar stored _))
    (flagged_wrapValue_right block ⟨stored, 0⟩ n) rfl (Value.same_refl _)

/-- The case at the top of the diamond for the right branch. -/
def rightCase : Case Empty Bool := ⟨"Top", "right", 1, ⟨"top"⟩, .nested 2 none⟩

/-- A host of programs that may register cases.  Nobody observes them, and what they make lies in
one block. -/
def quietHost : Host Empty Bool (StateT (World Empty Bool) Id) :=
  Host.living constantMeaning (fun _ => (pure () : Id Unit)) (pure 8) 4

/-- Registers a case and ends with a given union. -/
def flagAndSet (final : Union) : Morph (StateT (World Empty Bool) Id) Unit := do
  modifyThe (World Empty Bool) (Operation.apply · flag)
  Morph.setCurrent final

section Diamond

variable {addr : Address} {n : Int32} {u : Union}

/-- A descent whose body leaves its union alone puts back what the right branch wraps. -/
theorem diamond_descend_idle (hu : u.terminal = .scalar addr (.int32 n)) :
    (((descend quietHost rightCase 2 none (pure ())).run u).run diamond).run
      = ((some ⟨⟨"right"⟩, .layer ⟨8, 1⟩ u.terminal⟩,
          ⟨⟨"top"⟩, .layer ⟨8, 2⟩ (.layer ⟨8, 1⟩ u.terminal)⟩), diamond) := by
  change descend quietHost rightCase 2 none (pure ()) u diamond = _
  simp only [descend, hu]
  rw [diamond_eq]
  rfl

/-- A descent whose body registers a case puts back the union that it ends with. -/
theorem diamond_descend_flagAndSet (hu : u.terminal = .scalar addr (.int32 n)) (final : Union) :
    (((descend quietHost rightCase 2 none (flagAndSet final)).run u).run diamond).run
      = ((some final, ⟨⟨"top"⟩, final.toValue 8⟩), flagged) := by
  change descend quietHost rightCase 2 none (flagAndSet final) u diamond = _
  simp only [descend, hu]
  rw [flagged, diamond_eq]
  rfl

/-- The one after the other. -/
theorem diamond_descendAll (hu : u.terminal = .scalar addr (.int32 n)) (final : Union) :
    (((descendAll quietHost rightCase 2 none [pure (), flagAndSet final]).run u).run diamond).run
      = (([⟨⟨"right"⟩, .layer ⟨8, 1⟩ u.terminal⟩, final], ⟨⟨"top"⟩, final.toValue 8⟩),
          flagged) := by
  have hnext : Union.terminal ⟨⟨"top"⟩, .layer ⟨8, 2⟩ (.layer ⟨8, 1⟩ u.terminal)⟩
      = .scalar addr (.int32 n) := by
    rw [hu]
    rfl
  simp only [descendAll, StateT.run_bind, Id.run_bind, diamond_descend_idle hu,
    diamond_descend_flagAndSet hnext]
  rfl

end Diamond

/-- Two descents into the right branch of the diamond.  The first leaves its union alone.  The
second gives the registry at the bottom a case, and puts another number in the place of its union,
in a union that the handle of the branch has made. -/
theorem diamond_morphing_keeps_case :
    let v : Value := .scalar ⟨0, 0⟩ (.int32 5)
    let u : Union := ⟨⟨"top"⟩, .layer ⟨7, 2⟩ (.layer ⟨7, 1⟩ v)⟩
    let other : Union := ⟨⟨"right"⟩, .layer ⟨10, 1⟩ (.scalar ⟨9, 0⟩ (.int32 6))⟩
    let c : Case Empty Bool := ⟨"Top", "right", 1, ⟨"top"⟩, .nested 2 none⟩
    let host := Host.living constantMeaning (fun _ => (pure () : Id Unit)) (pure 8) 4
    let register : Operation Empty Bool := .register 0 "flag" (.ofType (.datum .bool) none)
    let bodies : List (Morph (StateT (World Empty Bool) Id) Unit) :=
      [pure (), do
        modifyThe (World Empty Bool) (Operation.apply · register)
        Morph.setCurrent other]
    let first : Union := ⟨⟨"top"⟩, .layer ⟨8, 2⟩ (.layer ⟨8, 1⟩ v)⟩
    let last : Union := ⟨⟨"top"⟩, .layer ⟨8, 2⟩ other.inner⟩
    let after := Operation.apply diamond register
    Always (· ∈ Set.univ) (pure 8 : Id Nat) ∧ c ∈ (diamond.registry 3).cases ∧
      ((Morph.changeByMorphingCase host c (pure ()) u).run diamond).run = (((), first), diamond) ∧
      first.same u = true ∧
      ((bodies.forM (Morph.changeByMorphingCase host c) u).run diamond).run
        = (((), last), after) ∧
      (c.accepts (Host.ofWorld after constantMeaning 12) last).run = true := by
  intro v u other c host register bodies first last after
  have hwrap : ((Host.ofWorld diamond constantMeaning 7).wrapValue 3 v).run = some u :=
    diamond_wrapValue_top 7 rfl
  have hwhich : ((Host.ofWorld diamond constantMeaning 7).which 3 u).run = some c.info :=
    diamond_which_top 7 rfl
  let own : Union := ⟨⟨"right"⟩, .layer ⟨8, 1⟩ v⟩
  have hown : ((Host.ofWorld diamond constantMeaning 8).wrapValue 2 u.terminal).run = some own :=
    diamond_wrapValue_right 8 rfl
  have hterminal : u.terminal = .scalar ⟨0, 0⟩ (.int32 5) := rfl
  have hfirst : (((descend host c 2 none (pure ())).run u).run diamond).run
      = ((some own, first), diamond) := diamond_descend_idle hterminal
  have hlast : (((descendAll host c 2 none bodies).run u).run diamond).run
      = (([own, other], last), after) := diamond_descendAll hterminal other
  have hsettled : ∀ final ∈ [own, other], after.Settled constantMeaning Set.univ 2 final := by
    intro final hfinal
    rcases List.mem_pair.mp hfinal with rfl | rfl
    · exact flagged_settled 8 0 5
    · exact flagged_settled 10 9 6
  have hmoved : last ≠ u := by
    intro h
    have haddr : 8 = 7 := congrArg (fun u => u.inner.addr.block) h
    omega
  have hrecogniser : c.recogniser = .nested 2 none := rfl
  have hfresh : Always (· ∈ Set.univ) (pure 8 : Id Nat) := always_pure (Set.mem_univ 8)
  obtain ⟨hchange, hmorphs⟩ := morphing_keeps_case hrecogniser constantMeaning
    (fun _ => (pure () : Id Unit)) hfresh 4
  obtain ⟨hone, hall⟩ := hchange host
  have hsame : first.same u = true :=
    hmorphs.same_of_run diamond_reachable diamond_size.le (Nat.lt_of_succ_lt top_lt_size_diamond)
      right_mem_diamond_top (Set.mem_univ 7) hwrap hwhich (constantMeaning_blind _ _) hfirst
      (Set.mem_univ 8) hown
  have hmatches : (c.accepts (Host.ofWorld after constantMeaning 12) last).run = true :=
    hmorphs.accepts_of_run hlast hmoved flagged_reachable hsettled (Set.mem_univ 12)
  refine ⟨hfresh, right_mem_diamond_top, ?_, hsame, ?_, hmatches⟩
  · rw [hone]
    exact Morph.run_discard hfirst
  · rw [hall]
    exact Morph.run_discard hlast

/-! ## A registry that grows in the meantime -/

/-- Another number. -/
def six : Value := .scalar ⟨6, 0⟩ (.int32 6)

/-- What `Mixed` wraps a number in as long as `Number` has no case. -/
def plainFive : Union := ⟨⟨"mixed"⟩, five⟩

/-- A registry that has another one wrap numbers, and wraps those that are left itself.  The other
one has no case yet.  It is nested in turn, first for one union alone and then for all. -/
def growing : World Empty Union :=
  ([.create "Number" .matching ⟨"number"⟩, .create "Mixed" .matching ⟨"mixed"⟩,
    .create "Outer" .matching ⟨"outer"⟩, .register 1 "deep" (.nested 0 none),
    .register 2 "only" (.nested 1 (some plainFive)), .register 2 "any" (.nested 1 none),
    .register 1 "plain" (.ofType (.datum .int32) none)] :
      List (Operation Empty Union)).foldl Operation.apply {}

/-- Gives the other one a case. -/
def growth : Operation Empty Union := .register 0 "int" (.ofType (.datum .int32) none)

/-- The same with that case. -/
def grown : World Empty Union := Operation.apply growing growth

/-- Nests `Mixed` for one union alone. -/
def onlyCase : Case Empty Union := ⟨"Outer", "only", 0, ⟨"outer"⟩, .nested 1 (some plainFive)⟩

/-- Nests `Mixed` for all unions. -/
def anyCase : Case Empty Union := ⟨"Outer", "any", 1, ⟨"outer"⟩, .nested 1 none⟩

/-- The registries of both worlds, written out. -/
theorem growing_eq :
    growing = {
      registries := [
        { label := "Number", flavor := .matching, tag := ⟨"number"⟩ },
        { label := "Mixed", flavor := .matching, tag := ⟨"mixed"⟩,
          cases := [⟨"Mixed", "deep", 0, ⟨"mixed"⟩, .nested 0 none⟩,
            ⟨"Mixed", "plain", 1, ⟨"mixed"⟩, .ofType (.datum .int32) none⟩],
          places := ((∅ : Std.TreeMap String Nat).insert "deep" 0).insert "plain" 1 },
        { label := "Outer", flavor := .matching, tag := ⟨"outer"⟩,
          cases := [onlyCase, anyCase],
          places := ((∅ : Std.TreeMap String Nat).insert "only" 0).insert "any" 1 }]
      wrappers := [⟨"outer"⟩, ⟨"mixed"⟩, ⟨"number"⟩] } := by
  cbv

theorem grown_eq :
    grown = {
      registries := [
        { label := "Number", flavor := .matching, tag := ⟨"number"⟩,
          cases := [⟨"Number", "int", 0, ⟨"number"⟩, .ofType (.datum .int32) none⟩],
          places := (∅ : Std.TreeMap String Nat).insert "int" 0 },
        { label := "Mixed", flavor := .matching, tag := ⟨"mixed"⟩,
          cases := [⟨"Mixed", "deep", 0, ⟨"mixed"⟩, .nested 0 none⟩,
            ⟨"Mixed", "plain", 1, ⟨"mixed"⟩, .ofType (.datum .int32) none⟩],
          places := ((∅ : Std.TreeMap String Nat).insert "deep" 0).insert "plain" 1 },
        { label := "Outer", flavor := .matching, tag := ⟨"outer"⟩,
          cases := [onlyCase, anyCase],
          places := ((∅ : Std.TreeMap String Nat).insert "only" 0).insert "any" 1 }]
      wrappers := [⟨"outer"⟩, ⟨"mixed"⟩, ⟨"number"⟩] } := by
  rw [grown, growing_eq]
  rfl

theorem growing_reachable : growing.Reachable := by
  refine .step (.step (.step (.step (.step (.step (.step .start
    (.create ..) trivial) (.create ..) trivial) (.create ..) trivial) (.register ..) ?_)
    (.register ..) ?_) (.register ..) ?_) (.register ..) ?_
  all_goals
    intro child h
    cases h
  all_goals exact ⟨by cbv, by cbv⟩

theorem grown_reachable : grown.Reachable :=
  .step growing_reachable (.register ..) nofun

/-- `Outer` has wrapped a number under its case `any`.  Then `Number` gets a case, and a descent
whose body does nothing puts a layer more around the number.

`Outer` has wrapped a number under its case `only`.  Then the body of a descent gives `Number` a
case and ends with what `Mixed` itself now makes of another number.  The guard refuses that, so the
union stays, but the case matches it no longer. -/
theorem growing_changes_morphing :
    let host := Host.living equality (fun _ => (pure () : Id Unit)) (pure 8) 3
    let u : Union := ⟨⟨"outer"⟩, .layer ⟨7, 1⟩ six⟩
    let deeper : Union := ⟨⟨"outer"⟩, .layer ⟨8, 2⟩ (.layer ⟨8, 1⟩ six)⟩
    let kept : Union := ⟨⟨"outer"⟩, .layer ⟨7, 1⟩ five⟩
    let other : Union := ⟨⟨"mixed"⟩, .layer ⟨9, 1⟩ six⟩
    let body : Morph (StateT (World Empty Union) Id) Unit := do
      modifyThe (World Empty Union) (Operation.apply · growth)
      Morph.setCurrent other
    growing.Reachable ∧ grown.Reachable ∧
      anyCase ∈ (growing.registry 2).cases ∧ onlyCase ∈ (growing.registry 2).cases ∧
      (((Host.ofWorld growing equality 7).wrapValue 2 six).run = some u ∧
        ((Host.ofWorld growing equality 7).which 2 u).run = some anyCase.info ∧
        ((Morph.changeByMorphingCase host anyCase (pure ()) u).run grown).run
          = (((), deeper), grown) ∧
        deeper.same u = false) ∧
      ((onlyCase.accepts (Host.ofWorld growing equality 7) kept).run = true ∧
        ((Morph.changeByMorphingCase host onlyCase body kept).run growing).run
          = (((), kept), grown) ∧
        ((Host.ofWorld grown equality 9).wrapValue 1 other.terminal).run = some other ∧
        (onlyCase.accepts (Host.ofWorld grown equality 9) kept).run = false) := by
  intro host u deeper kept other body
  have hany : anyCase ∈ (growing.registry 2).cases := by
    rw [growing_eq]
    exact .tail _ (.head _)
  have honly : onlyCase ∈ (growing.registry 2).cases := by
    rw [growing_eq]
    exact List.mem_cons_self ..
  refine ⟨growing_reachable, grown_reachable, hany, honly, ⟨?_, ?_, ?_, by decide +kernel⟩,
    ?_, ?_, ?_, ?_⟩
  · rw [growing_eq]
    rfl
  · rw [growing_eq]
    rfl
  · rw [grown_eq]
    rfl
  · rw [growing_eq]
    decide +kernel
  · unfold body grown
    rw [growing_eq]
    rfl
  · rw [grown_eq]
    rfl
  · rw [grown_eq]
    decide +kernel

end CaseUnion.World
