import CaseUnion.Morph
import CaseUnion.Proofs.Admission
import CaseUnion.Proofs.Living

/-!
# Descents into a nested case

A descent works on a child union, and puts that back under the nested case.  The child union is not
the one that the current union keeps.  It is the registry's own wrap of the terminal value, if that
passes the guard.  What the body of the descent ends with is put back as it is, under the guard
alone.  `Morph.descend` spells this out, for every host and every body, and morphing by a nested
case is such a descent (`Morph.changeByMorphingCase_eq`).

A body may register cases, so a descent is then followed in a program that changes the world.  The
body begins with what the nested registry makes of the terminal value in the world before it
(`exists_descend_of_accepts`).  Whatever the body does, the descent leaves the union that was
current, or one layer around what the body has ended with (`always_descend`).
-/

namespace CaseUnion

variable {C P : Type}

/-! ## What a descent does -/

namespace Morph

variable {m : Type → Type} [Monad m]

/-- Puts back the child union that the body of a descent has ended with.  If the guard refuses it,
the union that was current stays. -/
def putBack (host : Host C P m) (c : Case C P) (guard : Option P) (u final : Union) :
    m (Option Union × Union) := do
  if ← host.accepts guard (.union final) then
    return (some final, ⟨c.tag, final.toValue (← host.fresh)⟩)
  else
    host.emit (.morphRefused c.name)
    return (some final, u)

/-- A descent into a nested case, spelled out.  It tells the child union that the body has ended
with, if the body was run. -/
def descend (host : Host C P m) (c : Case C P) (child : RegistryId) (guard : Option P)
    (body : Morph m Unit) : Morph m (Option Union) := fun u => do
  match ← host.wrapValue child u.terminal with
  | none => return (none, u)
  | some own =>
    if ← host.accepts guard (.union own) then
      let (_, final) ← body.run own
      putBack host c guard u final
    else
      return (none, u)

/-- Descents one after another into one case.  They tell the child unions that their bodies have
ended with. -/
def descendAll (host : Host C P m) (c : Case C P) (child : RegistryId) (guard : Option P) :
    List (Morph m Unit) → Morph m (List Union)
  | [] => pure []
  | body :: rest => do
    let ended ← descend host c child guard body
    return ended.toList ++ (← descendAll host c child guard rest)

variable [LawfulMonad m] {c : Case C P} {child : RegistryId} {guard : Option P}

omit [LawfulMonad m] in
theorem discard_eq {R : Type} (x : Morph m R) (u : Union) :
    (do let _ ← x : Morph m Unit) u = x u >>= fun out => pure ((), out.2) := rfl

/-- A plain program whose answer is dropped leaves what it leaves with its answer. -/
theorem run_discard {W R : Type} {x : Morph (StateT W Id) R} {u next : Union} {w after : W}
    {answer : R} (hrun : ((x.run u).run w).run = ((answer, next), after)) :
    (((do let _ ← x : Morph (StateT W Id) Unit) u).run w).run = (((), next), after) :=
  congrArg (fun out => (((), out.1.2), out.2)) hrun

/-- Morphing by a nested case is such a descent. -/
theorem changeByMorphingCase_eq (host : Host C P m) (hc : c.recogniser = .nested child guard)
    (body : Morph m Unit) :
    changeByMorphingCase host c body = (do
      let _ ← descend host c child guard body) := by
  funext u
  rw [discard_eq]
  simp only [changeByMorphingCase, descend, putBack, child?, Case.unwrap_nested host hc, bind_assoc]
  refine bind_congr fun answer => ?_
  cases answer with
  | none => simp
  | some own =>
      simp only [bind_assoc]
      refine bind_congr fun accepted => ?_
      cases accepted with
      | false => simp
      | true =>
          simp only [if_true, pure_bind, Option.bind_some, Item.union?, bind_assoc,
            Case.rewrap_nested host hc, Case.wrap, hc]
          refine bind_congr fun ran => bind_congr fun passed => ?_
          cases passed <;> simp

/-- So are several such changes, one after another. -/
theorem forM_changeByMorphingCase_eq (host : Host C P m) (hc : c.recogniser = .nested child guard)
    (bodies : List (Morph m Unit)) :
    bodies.forM (changeByMorphingCase host c) = (do
      let _ ← descendAll host c child guard bodies) := by
  induction bodies with
  | nil => simp [descendAll]
  | cons body rest ih =>
      rw [List.forM_eq_forM] at ih ⊢
      rw [List.forM_cons, ih, changeByMorphingCase_eq host hc]
      simp [descendAll]

end Morph

/-! ## Descents in the world as it is -/

/-- What is left when a child union was put back under a case. -/
structure PutBack (μ : Meaning C P) (blocks : Set Nat) (c : Case C P) (guard : Option P)
    (u final current : Union) : Prop where
  of_accepted : μ.guards guard (.union final) = true →
    ∃ b ∈ blocks, current = ⟨c.tag, final.toValue b⟩
  of_refused : μ.guards guard (.union final) = false → current = u

section Descents

variable {m : Type → Type} [Monad m] [LawfulMonad m] {w : World C P} {μ : Meaning C P}
  {note : Effect C P → m Unit} {fresh : m Nat} {depth : Nat} {blocks : Set Nat} {c : Case C P}
  {child : RegistryId} {guard : Option P} {u : Union}

/-- A guard gives its verdict after some notes. -/
theorem exists_living_accepts (μ : Meaning C P) (note : Effect C P → m Unit) (fresh : m Nat)
    (depth : Nat) (guard : Option P) (item : Item) :
    ∃ notes : m PUnit, ∀ w, ((Host.living μ note fresh depth).accepts guard item).run w = (do
      notes
      return (μ.guards guard item, w)) := by
  cases guard with
  | none => exact ⟨pure ⟨⟩, fun w => by simp [Host.accepts, Host.passes, Meaning.guards]⟩
  | some predicate =>
      exact ⟨note (.check (.custom predicate) item), fun w => by
        simp [Host.accepts, Host.passes, Host.living, Meaning.guards, Meaning.check]⟩

theorem always_putBack (hfresh : Always (· ∈ blocks) fresh) (final : Union) (w : World C P) :
    Always (fun out => out.1.1 = some final ∧ out.2 = w ∧
        PutBack μ blocks c guard u final out.1.2)
      ((Morph.putBack (Host.living μ note fresh depth) c guard u final).run w) := by
  obtain ⟨checked, hchecked⟩ :=
    exists_living_accepts μ note fresh depth guard (.union final)
  have hnew : (Host.living μ note fresh depth).fresh = liftM fresh := rfl
  simp only [Morph.putBack, StateT.run_bind, hchecked, bind_assoc, pure_bind]
  refine (always_trivial checked).bind fun _ _ => ?_
  cases hfinal : μ.guards guard (.union final) with
  | true =>
      simp only [if_true, hnew, StateT.run_bind, StateT.run_pure]
      have hlift : (liftM fresh : StateT (World C P) m Nat).run w
          = fresh >>= fun b => pure (b, w) := rfl
      rw [hlift, bind_assoc]
      refine hfresh.bind fun b hb => ?_
      rw [pure_bind]
      have hput : PutBack μ blocks c guard u final ⟨c.tag, final.toValue b⟩ :=
        ⟨fun _ => ⟨b, hb, rfl⟩, by simp [hfinal]⟩
      exact always_pure ⟨rfl, rfl, hput⟩
  | false =>
      simp only [Bool.false_eq_true, if_false, StateT.run_bind, StateT.run_pure]
      have htold : ((Host.living μ note fresh depth).emit (.morphRefused c.name)).run w
          = note (.told (.morphRefused c.name)) >>= fun done => pure (done, w) := rfl
      rw [htold, bind_assoc]
      refine (always_trivial _).bind fun _ _ => ?_
      rw [pure_bind]
      have hput : PutBack μ blocks c guard u final u :=
        ⟨by simp [hfinal], fun _ => rfl⟩
      exact always_pure ⟨rfl, rfl, hput⟩

/-- Where the case matches, every block has a wrap of the nested registry that passes the guard. -/
theorem exists_passing_of_accepts (hw : w.Sound) (hrecogniser : c.recogniser = .nested child guard)
    (hblind : μ.Blind blocks u.terminal) {b b' : Nat} (hb : b ∈ blocks) (hb' : b' ∈ blocks)
    (hmatches : (c.accepts (Host.ofWorld w μ b) u).run = true) :
    ∃ own, ((Host.ofWorld w μ b').wrapValue child u.terminal).run = some own ∧
      μ.guards guard (.union own) = true := by
  obtain ⟨own, hown, hguard⟩ := (Case.run_accepts_nested_iff hrecogniser).mp hmatches
  have hpeeled : μ.Blind blocks u.terminal.terminal := by
    rwa [Union.terminal, Value.terminal_terminal]
  obtain ⟨own', hown', hguards⟩ := hw.exists_wrapValue_in hpeeled hb hb' hown
  exact ⟨own', hown', (hguards guard).trans hguard⟩

/-- So the case matches in every block or in none. -/
theorem run_accepts_in (hw : w.Sound) (hrecogniser : c.recogniser = .nested child guard)
    (hblind : μ.Blind blocks u.terminal) {b b' : Nat} (hb : b ∈ blocks) (hb' : b' ∈ blocks) :
    (c.accepts (Host.ofWorld w μ b) u).run = (c.accepts (Host.ofWorld w μ b') u).run := by
  have hmove : ∀ {b b'}, b ∈ blocks → b' ∈ blocks →
      (c.accepts (Host.ofWorld w μ b) u).run = true →
      (c.accepts (Host.ofWorld w μ b') u).run = true := fun hb hb' hmatches =>
    (Case.run_accepts_nested_iff hrecogniser).mpr
      (exists_passing_of_accepts hw hrecogniser hblind hb hb' hmatches)
  exact Bool.eq_iff_iff.mpr ⟨hmove hb hb', hmove hb' hb⟩

variable (hw : w.Sound) (hdepth : w.size ≤ depth) (hchild : child < w.size)
  (hrecogniser : c.recogniser = .nested child guard) (hfresh : Always (· ∈ blocks) fresh)
  (hblind : μ.Blind blocks u.terminal) {testing : Nat} (htesting : testing ∈ blocks)

include hw hdepth hchild hrecogniser hfresh hblind htesting

/-- Where the case does not match the current union, a descent asks that and does nothing else. -/
theorem descend_of_not_accepts (hmatches : (c.accepts (Host.ofWorld w μ testing) u).run = false)
    (body : Morph (StateT (World C P) m) Unit) :
    ((Morph.descend (Host.living μ note fresh depth) c child guard body).run u).run w = (do
      let _ ← (c.accepts (Host.living μ note fresh depth) u).run w
      return ((none, u), w)) := by
  obtain ⟨fresh', rfl⟩ := hfresh
  have hrun : ((Morph.descend (Host.living μ note (Subtype.val <$> fresh') depth) c child guard
      body).run u).run w = _ := StateT.run_bind _ _ w
  rw [hrun, Case.accepts_nested _ hrecogniser, StateT.run_bind,
    living_wrapValue μ note _ hw hdepth hchild]
  simp only [bind_map_left, bind_assoc, pure_bind]
  refine bind_congr fun b => bind_congr fun _ => ?_
  cases hown : ((Host.ofWorld w μ b).wrapValue child u.terminal).run with
  | none => simp
  | some own =>
      have hguard : μ.guards guard (.union own) = false := by
        rw [run_accepts_in hw hrecogniser hblind htesting b.2, ← Bool.not_eq_true,
          Case.run_accepts_nested_iff hrecogniser] at hmatches
        exact Bool.not_eq_true _ ▸ fun hguard => hmatches ⟨own, hown, hguard⟩
      obtain ⟨checked, hchecked⟩ :=
        exists_living_accepts μ note (Subtype.val <$> fresh') depth guard (.union own)
      simp [hchecked, hguard]

variable (note) in
/-- Where it matches, a descent begins its body with the nested registry's own wrap of the terminal
value, in the world as it is, and puts back what the body ends with. -/
theorem exists_descend_of_accepts
    (hmatches : (c.accepts (Host.ofWorld w μ testing) u).run = true)
    (body : Morph (StateT (World C P) m) Unit) :
    ∃ start : m Union,
      Always (fun own => μ.guards guard (.union own) = true ∧
        ∃ b ∈ blocks, ((Host.ofWorld w μ b).wrapValue child u.terminal).run = some own) start ∧
      ((Morph.descend (Host.living μ note fresh depth) c child guard body).run u).run w = (do
        let own ← start
        let ((_, final), w') ← (body.run own).run w
        (Morph.putBack (Host.living μ note fresh depth) c guard u final).run w') := by
  obtain ⟨fresh', rfl⟩ := hfresh
  have hpassing := fun b : {b // b ∈ blocks} =>
    exists_passing_of_accepts hw hrecogniser hblind htesting b.2 hmatches
  choose own hown hguard using hpassing
  have hnotes := fun b : {b // b ∈ blocks} =>
    exists_living_accepts μ note (Subtype.val <$> fresh') depth guard (.union (own b))
  choose checked hchecked using hnotes
  refine ⟨do
    let b ← fresh'
    replay note w u.terminal.terminal
      ((w.request hw.wellFounded μ b u.terminal.terminal child).kept [])
    checked b
    return own b, ?_, ?_⟩
  · refine (always_trivial fresh').bind fun b _ => ?_
    refine (always_trivial _).bind fun _ _ => (always_trivial _).bind fun _ _ => ?_
    exact always_pure ⟨hguard b, b, b.2, hown b⟩
  · have hrun : ((Morph.descend (Host.living μ note (Subtype.val <$> fresh') depth) c child guard
        body).run u).run w = _ := StateT.run_bind _ _ w
    rw [hrun, living_wrapValue μ note _ hw hdepth hchild]
    simp only [bind_map_left, bind_assoc, pure_bind, hown]
    refine bind_congr fun b => bind_congr fun _ => ?_
    simp only [StateT.run_bind, hchecked, bind_assoc, pure_bind, hguard, if_true]

omit hw hdepth hchild hrecogniser hblind htesting in
/-- A descent leaves the union that was current, or one around the child union that its body has
ended with and that the guard has accepted.  This is so in every world, whatever the body does. -/
theorem always_descend (body : Morph (StateT (World C P) m) Unit) (u : Union) (w : World C P) :
    Always (fun out => out.1.2 = u ∨ ∃ final, out.1.1 = some final ∧
        μ.guards guard (.union final) = true ∧ ∃ b ∈ blocks, out.1.2 = ⟨c.tag, final.toValue b⟩)
      (((Morph.descend (Host.living μ note fresh depth) c child guard body).run u).run w) := by
  have hrun : ((Morph.descend (Host.living μ note fresh depth) c child guard body).run u).run w
      = _ := StateT.run_bind _ _ w
  rw [hrun]
  refine (always_trivial _).bind ?_
  rintro ⟨_ | own, w'⟩ -
  · exact always_pure (.inl rfl)
  obtain ⟨checked, hchecked⟩ := exists_living_accepts μ note fresh depth guard (.union own)
  simp only [StateT.run_bind, hchecked, bind_assoc, pure_bind]
  refine (always_trivial checked).bind fun _ _ => ?_
  cases μ.guards guard (.union own) with
  | false => exact always_pure (.inl rfl)
  | true =>
      simp only [if_true, StateT.run_bind]
      refine (always_trivial _).bind ?_
      rintro ⟨⟨-, final⟩, w''⟩ -
      refine (always_putBack hfresh final w'').imp ?_
      rintro ⟨⟨told, current⟩, after⟩ ⟨rfl, rfl, hput⟩
      cases hfinal : μ.guards guard (.union final) with
      | false => exact .inl (hput.of_refused hfinal)
      | true => exact .inr ⟨final, rfl, hfinal, hput.of_accepted hfinal⟩

omit hw hdepth hchild hrecogniser hblind htesting in
/-- So do several descents one after another. -/
theorem always_descendAll (bodies : List (Morph (StateT (World C P) m) Unit)) (u : Union)
    (w : World C P) :
    Always (fun out => out.1.2 = u ∨ ∃ final ∈ out.1.1, μ.guards guard (.union final) = true ∧
        ∃ b ∈ blocks, out.1.2 = ⟨c.tag, final.toValue b⟩)
      (((Morph.descendAll (Host.living μ note fresh depth) c child guard bodies).run u).run w) := by
  induction bodies generalizing u w with
  | nil => exact always_pure (.inl rfl)
  | cons body rest ih =>
      rw [Morph.descendAll, StateT.run_bind, StateT.run_bind]
      refine (always_descend hfresh body u w).bind ?_
      rintro ⟨⟨ended, next⟩, w'⟩ hnext
      rw [StateT.run_bind, StateT.run_bind]
      refine (ih next w').bind ?_
      rintro ⟨⟨more, last⟩, w''⟩ hlast
      refine always_pure ?_
      rcases hlast with rfl | ⟨final, hmem, hlast⟩
      · rcases hnext with rfl | ⟨final, rfl, hnext⟩
        · exact .inl rfl
        · exact .inr ⟨final, List.mem_cons_self .., hnext⟩
      · exact .inr ⟨final, List.mem_append_right _ hmem, hlast⟩

end Descents

end CaseUnion
