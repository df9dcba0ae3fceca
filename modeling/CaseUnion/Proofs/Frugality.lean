import CaseUnion.Proofs.Memoisation
import CaseUnion.Proofs.Orderly
import CaseUnion.Proofs.Repetition

/-!
# What a call does, and in which order

A call wraps a value, asks for the case of a union, or casts a value to one case.  What it has its
host do is what the course of the evaluation without a memo says, with every evaluation of a
registry deleted that was evaluated before (`Reachable.call_frugal`).

So a call is *frugal*.  No registry is evaluated twice, and no case is tested, cast or checked
twice.  Cases are tested in the order of declaration and no further than the first that recognises
the value, a check runs after the source of its case, and a registry that is asked again gives what
its evaluation found.
-/

namespace CaseUnion

open Relation (TransGen)
open Course (Step)

variable {C P : Type}

/-! ## Calls -/

/-- A call that discriminates a value. -/
inductive Call (C P : Type) where
  | wrapValue (id : RegistryId) (v : Value)
  | which (id : RegistryId) (u : Union)
  /-- The cast of a case of a registry. -/
  | cast (id : RegistryId) (c : Case C P) (v : Value)

namespace Call

/-- The terminal value that a call discriminates. -/
def terminal : Call C P → Value
  | wrapValue _ v | cast _ _ v => v.terminal
  | which _ u => u.terminal

/-- Whether a call is about a registry, or a case of one, that exists. -/
def Valid (w : World C P) : Call C P → Prop
  | wrapValue id _ | which id _ => id < w.size
  | cast id c _ => c ∈ (w.registry id).cases

/-- Makes a call for what it does. -/
def perform {m : Type → Type} [Monad m] (host : Host C P m) : Call C P → m Unit
  | wrapValue id v => do let _ ← host.wrapValue id v
  | which id u => do let _ ← host.which id u
  | cast _ c v => do let _ ← c.cast host v

/-- The course of a call without a memo. -/
def course (w : World C P) (h : WellFounded w.Nests) (μ : Meaning C P) (block : Nat)
    (call : Call C P) : Course C P :=
  match call with
  | wrapValue id _ | which id _ => w.request h μ block call.terminal id
  | cast id c _ =>
      .ofCase μ (w.unmemoised h μ block call.terminal) call.terminal
        (w.request h μ block call.terminal) id c

end Call

/-- A world at rest that records what its host is asked to do. -/
def Host.recorder (w : World C P) (μ : Meaning C P) (block : Nat) :
    Host C P (StateM (List (Effect C P))) :=
  .observed w μ block fun effect => modify (· ++ [effect])

/-- What the host is asked to do in a call, in order. -/
def Call.log (w : World C P) (μ : Meaning C P) (block : Nat) (call : Call C P) :
    List (Effect C P) :=
  ((call.perform (Host.recorder w μ block)).run []).2

/-- A recorder writes down what it is told. -/
theorem run_forM_record (effects log : List (Effect C P)) :
    (effects.forM fun effect => (modify (· ++ [effect]) : StateM (List (Effect C P)) Unit)).run log
      = pure ((), log ++ effects) := by
  induction effects generalizing log with
  | nil => simp
  | cons effect rest ih =>
      rw [List.forM, StateT.run_bind]
      simpa using ih (log ++ [effect])

/-- A call has its host do what its steps say. -/
theorem Call.log_eq {w : World C P} (hw : w.Sound) (μ : Meaning C P) (block : Nat)
    {call : Call C P} (hcall : call.Valid w) :
    call.log w μ block
      = ((call.course w hw.wellFounded μ block).kept []).filterMap
          (Step.effect? w call.terminal) := by
  have hperform : call.perform (Host.recorder w μ block)
      = replay (fun effect => modify (· ++ [effect])) w call.terminal
          ((call.course w hw.wellFounded μ block).kept []) := by
    cases call with
    | wrapValue id v =>
        simp [perform, Host.recorder, course, terminal,
          observed_wrapValue hw μ block _ id hcall v]
    | which id u =>
        simp [perform, Host.recorder, course, terminal,
          observed_which hw μ block _ id u]
    | cast id c v =>
        simp [perform, Host.recorder, course, terminal,
          observed_cast hw μ block _ id hcall v]
  rw [log, hperform, replay, run_forM_record]
  rfl

/-! ## Calls are frugal -/

/-- What the steps of a call keep to. -/
structure Frugal (w : World C P) (h : WellFounded w.Nests) (μ : Meaning C P) (block : Nat)
    (terminal : Value) (steps : List (Step C P)) : Prop where
  /-- No registry is entered twice, and no case is tested, cast or checked twice. -/
  once : (steps.filterMap Step.mark?).Nodup
  /-- Whatever is done is justified by what was done before. -/
  justified : ∀ before s after, steps = before ++ s :: after →
    s.Justified w h μ block terminal before
  /-- No case declared after the one that was found is tested. -/
  lazy : ∀ id c item, .leave id (some (c, item)) ∈ steps →
    ∀ d, .test id d ∈ steps → d.ordinal ≤ c.ordinal

/-- Steps are frugal if they are justified, differ, and do not begin with the test of a case whose
registry they enter. -/
theorem Frugal.of_justified {w : World C P} (hw : w.Sound) {μ : Meaning C P} {block : Nat}
    {terminal : Value} {steps : List (Step C P)} (honce : (steps.filterMap Step.mark?).Nodup)
    (hjustified : Course.Justified w hw.wellFounded μ block terminal [] steps)
    (hhead : ∀ id c, steps.head? = some (.test id c) → .enter id ∉ steps) :
    Frugal w hw.wellFounded μ block terminal steps := by
  have hat : ∀ before s after, steps = before ++ s :: after →
      s.Justified w hw.wellFounded μ block terminal before := by
    rintro before s after rfl
    simpa using ((Course.justified_append _ _).mp hjustified).2.1
  refine ⟨honce, hat, fun id c item hleave d htest => ?_⟩
  obtain ⟨before, after, hsteps⟩ := List.append_of_mem hleave
  obtain ⟨henter, hfound⟩ := hat _ _ _ hsteps
  obtain ⟨hc, hseen⟩ := Registry.of_firstSeen_eq_some hfound.symm
  obtain ⟨before', after', hsteps'⟩ := List.append_of_mem htest
  rcases hat _ _ _ hsteps' with hnil | ⟨-, earlier, later, hcases, hearlier⟩
  · refine absurd (by rw [hsteps]; simp [henter]) (hhead id d ?_)
    simp [hsteps', hnil]
  · rcases (hw.ordered id).mem_earlier_or_le hcases hc with hold | hle
    · rw [(hearlier c hold).2] at hseen
      cases hseen
    · exact hle

namespace World

variable {w : World C P}

/-- The evaluation of a registry is frugal. -/
theorem frugal_request (hw : w.Sound) (μ : Meaning C P) (block : Nat) (terminal : Value)
    (id : RegistryId) :
    Frugal w hw.wellFounded μ block terminal
      ((w.request hw.wellFounded μ block terminal id).kept []) := by
  have hrecorded : Course.Recorded w hw.wellFounded μ block terminal [] [] := by
    simp [Course.Recorded]
  refine .of_justified hw (Course.once_request _ μ block terminal hw.ordered id []).nodup
    (Course.orderly_request id [] [] hrecorded).justified fun other c hhead => ?_
  rw [kept_request _ _ List.not_mem_nil] at hhead
  cases hhead

/-- The test of a case by its handle is frugal.  The registry of the case is never entered, since it
would be below itself. -/
theorem frugal_ofCase (hw : w.Sound) (μ : Meaning C P) (block : Nat) (terminal : Value)
    {id : RegistryId} {c : Case C P} (hc : c ∈ (w.registry id).cases) :
    Frugal w hw.wellFounded μ block terminal
      ((Course.ofCase μ (w.unmemoised hw.wellFounded μ block terminal) terminal
        (w.request hw.wellFounded μ block terminal) id c).kept []) := by
  have hrecorded : Course.Recorded w hw.wellFounded μ block terminal [] [] := by
    simp [Course.Recorded]
  have hjustified := Course.orderly_ofCase id c
    (fun child _ => Course.orderly_request child) hrecorded (.inl rfl)
  have honce := Course.once_ofCase hw.wellFounded μ block terminal id c
    (fun child hchild visited =>
      (Course.once_request _ μ block terminal hw.ordered child visited).mono
        (fun _ => False.elim)
        fun _ hbelow => TransGen.tail' hbelow (Registry.mem_children hc hchild)) []
  refine .of_justified hw honce.nodup hjustified.justified fun other d hhead hentered => ?_
  cases hhead
  rcases honce.placed (.entered id) (List.mem_filterMap.mpr ⟨_, hentered, rfl⟩) with
    ⟨-, hordinal⟩ | ⟨hbelow, -⟩
  · cases hordinal
  · exact Nesting.not_cycle hw.wellFounded id hbelow

/-- A call has its host do what the evaluation without a memo does, with every evaluation of a
registry deleted that was evaluated before, and the call is frugal. -/
theorem Reachable.call_frugal (hw : w.Reachable) (μ : Meaning C P) (block : Nat) (call : Call C P)
    (hcall : call.Valid w) :
    call.log w μ block
        = ((call.course w hw.sound.wellFounded μ block).kept []).filterMap
            (Step.effect? w call.terminal) ∧
      Frugal w hw.sound.wellFounded μ block call.terminal
        ((call.course w hw.sound.wellFounded μ block).kept []) := by
  refine ⟨call.log_eq hw.sound μ block hcall, ?_⟩
  cases call with
  | wrapValue id v => exact frugal_request hw.sound μ block _ id
  | which id u => exact frugal_request hw.sound μ block _ id
  | cast id c v => exact frugal_ofCase hw.sound μ block _ hcall

/-- In the diamond the registry at the bottom is evaluated once, under the left branch.  The guard
of that branch refuses its answer, and the right branch recalls it. -/
theorem diamond_call_frugal :
    let v : Value := .scalar ⟨0, 0⟩ (.int32 5)
    let call : Call Empty Bool := .wrapValue 3 v
    let child : Item := .union ⟨⟨"leaf"⟩, v⟩
    let steps := (call.course diamond diamond_reachable.sound.wellFounded constantMeaning 7).kept []
    call.Valid diamond ∧
      Frugal diamond diamond_reachable.sound.wellFounded constantMeaning 7 v steps ∧
      steps.filterMap (Step.effect? diamond v)
        = [.cast (.content (.datum .int32)) v,
          .told (.matched "Leaf" ⟨"Leaf", "int", 0, .member⟩ v.type),
          .check (.custom false) child,
          .told (.recalled "Leaf" true),
          .told (.matched "Right" ⟨"Right", "plain", 0, .union⟩ v.type),
          .told (.matched "Top" ⟨"Top", "right", 1, .union⟩ v.type)] := by
  intro v call child steps
  have hvalid : call.Valid diamond := top_lt_size_diamond
  obtain ⟨hlog, hfrugal⟩ := diamond_reachable.call_frugal constantMeaning 7 call hvalid
  refine ⟨hvalid, hfrugal, hlog.symm.trans ?_⟩
  rw [diamond_eq]
  rfl

end World

end CaseUnion
