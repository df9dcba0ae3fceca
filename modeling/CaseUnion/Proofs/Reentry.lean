import CaseUnion.Proofs.Frugality
import CaseUnion.Proofs.Membership

/-!
# No registry is entered again

While a walk asks a registry, the registries it was asked from are on a stack.
`Host.answerReporting` is the walk's recursion with that stack as an argument, and it reports each
time a registry is asked: the stack, and what the memo holds for the registry on its top.

In a reachable world every such *visit* is sound (`reports_answer`).  Each registry on the stack is
nested in the next, so no registry is there twice and the stack is no longer than the world.  The
registries that are pending in the memo are on the stack below the one that is asked, so its own
slot is not pending.  The bound on the depth of a walk is never met if it is at least the size of
the world.  All this comes from the nesting of registries alone, so it holds of every host that
leaves the world at rest, whatever its casts and predicates do.

At the bottom of a stack is the registry that a call asks first.  A call for the case of a union
tests the cases of the registry it is about without asking it.  That registry is at the bottom of
the stack all the same, so it is not asked either.
-/

namespace CaseUnion

variable {C P : Type} {m : Type → Type}

/-! ## Walks that report -/

/-- A registry that is asked in a walk. -/
structure Visit where
  registry : RegistryId
  /-- The registries it was asked from, the innermost first. -/
  below : List RegistryId
  /-- What the memo holds for the registry when it is asked. -/
  slot : Option Slot

/-- The registry that is asked and those it was asked from. -/
def Visit.stack (visit : Visit) : List RegistryId := visit.registry :: visit.below

/-- Writes a visit down. -/
def record [Monad m] (visit : Visit) : StateT (List Visit) m PUnit := modify (· ++ [visit])

@[simp] theorem run_record [Monad m] (visit : Visit) (log : List Visit) :
    (record visit : StateT (List Visit) m PUnit).run log = pure (⟨⟩, log ++ [visit]) := rfl

namespace Host

variable [Monad m] (host : Host C P m)

/-- The host of programs that also write visits down. -/
def noting : Host C P (StateT (List Visit) m) where
  world := liftM host.world
  convert cast v := liftM (host.convert cast v)
  holds p item := liftM (host.holds p item)
  fresh := liftM host.fresh
  emit event := liftM (host.emit event)
  depth := host.depth

/-- The answer of a registry to a terminal value, given how the registries nested in it answer. -/
def answerFrom (ask : RegistryId → Walk m (Option Union)) (block : Nat) (terminal : Value)
    (id : RegistryId) : Walk m (Option Union) := do
  let r ← host.registry id
  match (← get)[id]? with
  | some (.done known) =>
    host.emit (.recalled r.label known.isSome)
    return known
  | some .pending =>
    host.emit (.reentered r.label)
    return none
  | none =>
    modify (·.insert id .pending)
    let found ← host.discriminate ask terminal r
    let union := found.map fun (c, item) =>
      ⟨r.tag, c.recogniser.stored block terminal item⟩
    modify (·.insert id (.done union))
    return union

theorem answer_succ (block : Nat) (terminal : Value) (depth : Nat) :
    host.answer block terminal (depth + 1)
      = host.answerFrom (host.answer block terminal depth) block terminal := rfl

/-- The answer of a registry that is asked from those of a stack.  Every registry that is asked is
reported. -/
def answerReporting (report : Visit → m PUnit) (block : Nat) (terminal : Value) :
    Nat → List RegistryId → RegistryId → Walk m (Option Union)
  | 0, stack, id => do
    report ⟨id, stack, (← get)[id]?⟩
    return none
  | depth + 1, stack, id => do
    report ⟨id, stack, (← get)[id]?⟩
    host.answerFrom (answerReporting report block terminal depth (id :: stack)) block terminal id

end Host

/-! ## Hosts that leave the world at rest -/

namespace Host

variable [Monad m] [LawfulMonad m] {host : Host C P m} {w : World C P}

theorem registry_eq (hworld : host.world = pure w) (id : RegistryId) :
    host.registry id = pure (w.registry id) := by
  simp [registry, hworld]

theorem noting_world (hworld : host.world = pure w) : host.noting.world = pure w := by
  simp [noting, hworld]

/-- A check runs as it does where nothing is written down. -/
theorem noting_checked (check : Option (Check P)) (item : Option Item) :
    host.noting.checked check item = liftM (host.checked check item) := by
  cases item with
  | none => simp [checked]
  | some item =>
      cases check with
      | none => simp [checked, passes]
      | some check =>
          have hif : ∀ holds : Bool,
              (if holds then pure (some item) else pure none : StateT (List Visit) m (Option Item))
                = liftM (if holds then pure (some item) else pure none : m (Option Item)) := by
            intro holds
            cases holds <;> simp
          simp [checked, passes, noting, hif]

/-- A registry that was not asked before is pending until it has its answer. -/
theorem run_answerFrom (hworld : host.world = pure w) (ask : RegistryId → Walk m (Option Union))
    (block : Nat) (terminal : Value) (id : RegistryId) (memo : Memo) :
    (host.answerFrom ask block terminal id).run memo =
      match memo[id]? with
      | some (.done known) => do
        host.emit (.recalled (w.registry id).label known.isSome)
        return (known, memo)
      | some .pending => do
        host.emit (.reentered (w.registry id).label)
        return (none, memo)
      | none => do
        let (found, memo') ← (host.discriminate ask terminal (w.registry id)).run
          (memo.insert id .pending)
        let union := found.map fun (c, item) =>
          ⟨(w.registry id).tag, c.recogniser.stored block terminal item⟩
        return (union, memo'.insert id (.done union)) := by
  simp only [answerFrom, registry_eq hworld]
  cases hslot : memo[id]? with
  | none => simp [hslot]
  | some slot => cases slot <;> simp [hslot]

end Host

/-! ## Sound visits -/

/-- A visit that is made from above a stack.  Each registry on its own stack is nested in the next,
and the one that is asked is not pending. -/
structure World.SoundVisit (w : World C P) (stack : List RegistryId) (visit : Visit) : Prop where
  path : w.Path visit.stack
  above : stack <:+ visit.below
  not_pending : visit.slot ≠ some .pending

/-- Whatever is pending in a memo is on a stack. -/
def Memo.PendingOn (stack : List RegistryId) (memo : Memo) : Prop :=
  ∀ id, memo[id]? = some .pending → id ∈ stack

theorem Memo.pendingOn_empty : Memo.PendingOn [] ∅ := fun id hid => by simp at hid

theorem Memo.PendingOn.enter {stack : List RegistryId} {memo : Memo} (h : memo.PendingOn stack)
    (id : RegistryId) : Memo.PendingOn (id :: stack) (memo.insert id .pending) := by
  intro other hother
  simp only [Std.TreeMap.getElem?_insert, Std.compare_eq_iff_eq] at hother
  split at hother
  next heq => exact heq ▸ List.mem_cons_self ..
  next => exact List.mem_cons_of_mem _ (h other hother)

theorem Memo.PendingOn.leave {stack : List RegistryId} {memo : Memo} {id : RegistryId}
    (h : memo.PendingOn (id :: stack)) (answer : Option Union) :
    Memo.PendingOn stack (memo.insert id (.done answer)) := by
  intro other hother
  simp only [Std.TreeMap.getElem?_insert, Std.compare_eq_iff_eq] at hother
  split at hother
  next => cases hother
  next hne =>
    rcases List.mem_cons.mp (h other hother) with heq | hmem
    · exact absurd heq.symm hne
    · exact hmem

/-- An outcome of a walk with sound visits, given the memo before.  What is pending after it is on a
stack, and the memo has what it had and what was visited. -/
structure Reported (w : World C P) (marked stack : List RegistryId) (before : Memo)
    (α : Type) where
  result : α
  memo : Memo
  visits : List Visit
  pendingOn : memo.PendingOn marked
  sound : ∀ visit ∈ visits, w.SoundVisit stack visit
  asked : ∀ id, id ∈ memo ↔ id ∈ before ∨ ∃ visit ∈ visits, visit.registry = id

namespace Reported

variable {α β : Type} {w : World C P} {marked stack : List RegistryId} {before : Memo}

/-- What the walk leaves, without the visits. -/
def ran (out : Reported w marked stack before α) : α × Memo := (out.result, out.memo)

/-- A walk that does not ask. -/
def idle (hbefore : before.PendingOn marked) (result : α) : Reported w marked stack before α where
  result := result
  memo := before
  visits := []
  pendingOn := hbefore
  sound := by simp
  asked := by simp

/-- The second of two walks, with the visits of both. -/
def after (out : Reported w marked stack before α) (next : Reported w marked stack out.memo β) :
    Reported w marked stack before β where
  result := next.result
  memo := next.memo
  visits := out.visits ++ next.visits
  pendingOn := next.pendingOn
  sound visit hvisit := (List.mem_append.mp hvisit).elim (out.sound visit) (next.sound visit)
  asked id := by
    rw [next.asked, out.asked]
    simp only [List.mem_append, or_and_right, exists_or, or_assoc]

/-- A walk that asks a registry again. -/
def again {id : RegistryId} {slot : Slot} (hbefore : before.PendingOn marked)
    (hslot : before[id]? = some slot) (hvisit : w.SoundVisit stack ⟨id, stack, some slot⟩)
    (answer : Option Union) : Reported w marked stack before (Option Union) where
  result := answer
  memo := before
  visits := [⟨id, stack, some slot⟩]
  pendingOn := hbefore
  sound := by simpa using hvisit
  asked other := by
    have hid : id ∈ before := Std.TreeMap.mem_iff_isSome_getElem?.mpr (by simp [hslot])
    constructor
    · exact .inl
    · rintro (hother | ⟨visit, hvisit, rfl⟩)
      · exact hother
      · rw [List.mem_singleton.mp hvisit]
        exact hid

/-- A walk from the top of a stack, where the registry there then has its answer. -/
def leave {id : RegistryId}
    (out : Reported w (id :: marked) (id :: stack) (before.insert id .pending) α)
    (hvisit : w.SoundVisit stack ⟨id, stack, none⟩) (answer : Option Union) :
    Reported w marked stack before (Option Union) where
  result := answer
  memo := out.memo.insert id (.done answer)
  visits := ⟨id, stack, none⟩ :: out.visits
  pendingOn := out.pendingOn.leave answer
  sound := List.forall_mem_cons.mpr ⟨hvisit, fun visit hbelow =>
    have hsound := out.sound visit hbelow
    ⟨hsound.path, (List.suffix_cons id stack).trans hsound.above, hsound.not_pending⟩⟩
  asked other := by
    simp only [Std.TreeMap.mem_insert, Std.compare_eq_iff_eq, out.asked, List.mem_cons,
      exists_eq_or_imp]
    tauto

@[simp] theorem ran_after (out : Reported w marked stack before α)
    (next : Reported w marked stack out.memo β) : (out.after next).ran = next.ran := rfl

@[simp] theorem visits_after (out : Reported w marked stack before α)
    (next : Reported w marked stack out.memo β) :
    (out.after next).visits = out.visits ++ next.visits := rfl

end Reported

/-- A walk that reports does what a walk does, and all visits that it makes are sound. -/
def Reports [Monad m] {α : Type} (w : World C P) (marked stack : List RegistryId)
    (x : Walk (StateT (List Visit) m) α) (y : Walk m α) : Prop :=
  ∀ memo : Memo, memo.PendingOn marked →
    ∃ z : m (Reported w marked stack memo α),
      y.run memo = Reported.ran <$> z ∧
      ∀ log, (x.run memo).run log = (fun out => (out.ran, log ++ out.visits)) <$> z

section Reports

variable [Monad m] [LawfulMonad m] {α β : Type} {w : World C P} {marked stack : List RegistryId}

theorem reports_pure (a : α) : Reports (m := m) w marked stack (pure a) (pure a) := fun memo h =>
  ⟨pure (.idle h a), by simp [Reported.ran, Reported.idle],
    fun log => by simp [Reported.ran, Reported.idle]⟩

/-- What a host does is no visit. -/
theorem reports_lift (x : m α) :
    Reports w marked stack (liftM (liftM x : StateT (List Visit) m α)) (liftM x : Walk m α) :=
  fun memo h => ⟨Reported.idle h <$> x, by simp [Reported.ran, Reported.idle],
    fun log => by simp [Reported.ran, Reported.idle]⟩

theorem Reports.bind {x : Walk (StateT (List Visit) m) α} {y : Walk m α}
    {f : α → Walk (StateT (List Visit) m) β} {g : α → Walk m β} (h : Reports w marked stack x y)
    (hf : ∀ a, Reports w marked stack (f a) (g a)) :
    Reports w marked stack (x >>= f) (y >>= g) := by
  intro memo hmemo
  obtain ⟨z, hy, hx⟩ := h memo hmemo
  have hrest := fun out : Reported w marked stack memo α => hf out.result out.memo out.pendingOn
  choose rest hg hf using hrest
  refine ⟨z >>= fun out => out.after <$> rest out, ?_, fun log => ?_⟩
  · have hnext : ∀ out : Reported w marked stack memo α,
        (g out.ran.1).run out.ran.2 = Reported.ran <$> rest out := hg
    simp only [StateT.run_bind, hy, bind_map_left, map_bind, hnext, Functor.map_map,
      Reported.ran_after]
  · have hnext : ∀ (out : Reported w marked stack memo α) (log : List Visit),
        ((f out.ran.1).run out.ran.2).run log
          = (fun next => (next.ran, log ++ next.visits)) <$> rest out := hf
    simp only [StateT.run_bind, hx, bind_map_left, map_bind, hnext, Functor.map_map,
      Reported.ran_after, Reported.visits_after, List.append_assoc]

variable (host : Host C P m) (terminal : Value)
  {ask : RegistryId → Walk (StateT (List Visit) m) (Option Union)}
  {ask' : RegistryId → Walk m (Option Union)}

theorem reports_see (recogniser : Recogniser C P)
    (hask : ∀ child, recogniser.child? = some child →
      Reports w marked stack (ask child) (ask' child)) :
    Reports w marked stack (host.noting.see ask terminal recogniser)
      (host.see ask' terminal recogniser) := by
  have hchecked : ∀ item, Reports w marked stack
      (liftM (host.noting.checked recogniser.check? item))
      (liftM (host.checked recogniser.check? item)) := fun item => by
    rw [Host.noting_checked]
    exact reports_lift _
  cases hsource : recogniser.source with
  | cast cast =>
      simp only [Host.see, hsource]
      exact (reports_lift (host.convert cast terminal)).bind hchecked
  | registry child =>
      simp only [Host.see, hsource, pure_bind]
      exact (hask child (Recogniser.child?_eq_some_iff.mpr hsource)).bind fun _ => hchecked _

theorem reports_firstMatch : ∀ cs : List (Case C P),
    (∀ c ∈ cs, ∀ child, c.recogniser.child? = some child →
      Reports w marked stack (ask child) (ask' child)) →
    Reports w marked stack (host.noting.firstMatch ask terminal cs)
      (host.firstMatch ask' terminal cs)
  | [], _ => reports_pure none
  | c :: rest, hask => by
      have hsee := reports_see host terminal c.recogniser (hask c (List.mem_cons_self ..))
      refine hsee.bind fun item => ?_
      cases item with
      | none => exact reports_firstMatch rest fun d hd => hask d (List.mem_cons_of_mem _ hd)
      | some item => exact reports_pure _

theorem reports_discriminate {id : RegistryId}
    (hask : ∀ child ∈ w.children id, Reports w marked stack (ask child) (ask' child)) :
    Reports w marked stack (host.noting.discriminate ask terminal (w.registry id))
      (host.discriminate ask' terminal (w.registry id)) := by
  refine (reports_firstMatch host terminal _ fun c hc child hchild =>
    hask child (Registry.mem_children hc hchild)).bind fun found => ?_
  cases found with
  | none => exact reports_pure none
  | some found => exact (reports_lift (host.emit _)).bind fun _ => reports_pure (some found)

variable {host}

/-- A registry that is nested in the top of a stack makes a sound visit when it is asked. -/
theorem reports_asked (hw : w.Sound) (hworld : host.world = pure w) (block : Nat)
    (hmarked : marked ⊆ stack) {id : RegistryId} (hpath : w.Path (id :: stack))
    (hask : ∀ child ∈ w.children id,
      Reports w (id :: marked) (id :: stack) (ask child) (ask' child)) :
    Reports w marked stack
      (do
        liftM (record ⟨id, stack, (← get)[id]?⟩ : StateT (List Visit) m PUnit)
        host.noting.answerFrom ask block terminal id)
      (host.answerFrom ask' block terminal id) := by
  intro memo hmemo
  have hfresh : memo[id]? ≠ some .pending := fun hpending =>
    (List.nodup_cons.mp (hpath.nodup hw)).1 (hmarked (hmemo id hpending))
  have hvisit : w.SoundVisit stack ⟨id, stack, memo[id]?⟩ :=
    ⟨hpath, List.suffix_rfl, hfresh⟩
  have hrecord : ∀ log : List Visit, ((do
        liftM (record ⟨id, stack, (← get)[id]?⟩ : StateT (List Visit) m PUnit)
        host.noting.answerFrom ask block terminal id : Walk _ _).run memo).run log
      = ((host.noting.answerFrom ask block terminal id).run memo).run
          (log ++ [⟨id, stack, memo[id]?⟩]) := fun log => by simp
  simp only [hrecord]
  rw [Host.run_answerFrom hworld, Host.run_answerFrom (Host.noting_world hworld)]
  cases hslot : memo[id]? with
  | some slot =>
      cases slot with
      | pending => exact absurd hslot hfresh
      | done known =>
          rw [hslot] at hvisit
          refine ⟨(fun _ => .again hmemo hslot hvisit known)
            <$> host.emit (.recalled (w.registry id).label known.isSome), ?_, fun log => ?_⟩
          · simp [Reported.ran, Reported.again]
          · simp [Reported.ran, Reported.again, Host.noting]
  | none =>
      obtain ⟨z, hy, hx⟩ := reports_discriminate host terminal hask _ (hmemo.enter id)
      let union (found : Option (Case C P × Item)) : Option Union := found.map fun (c, item) =>
        ⟨(w.registry id).tag, c.recogniser.stored block terminal item⟩
      rw [hslot] at hvisit
      refine ⟨(fun out => out.leave hvisit (union out.result)) <$> z, ?_, fun log => ?_⟩
      · simp only [hy, bind_map_left, Functor.map_map]
        rw [map_eq_pure_bind]
        rfl
      · simp only [StateT.run_bind, hx, bind_map_left, Functor.map_map, List.append_assoc]
        rw [map_eq_pure_bind]
        rfl

/-- The answer of a registry makes sound visits, and the walk may go as deep as it likes.  The depth
is never used up, since no path is longer than the world. -/
theorem reports_answer (hw : w.Sound) (hworld : host.world = pure w) (block : Nat) (depth : Nat)
    (hmarked : marked ⊆ stack) (hdepth : w.size ≤ depth + stack.length) {id : RegistryId}
    (hpath : w.Path (id :: stack)) :
    Reports w marked stack
      (host.noting.answerReporting record block terminal depth stack id)
      (host.answer block terminal depth id) := by
  induction depth generalizing marked stack id with
  | zero =>
      have hlength := hpath.length_le hw
      rw [List.length_cons] at hlength
      omega
  | succ depth ih =>
      have hbelow : Reports w marked stack _ _ := reports_asked terminal hw hworld block hmarked
        hpath fun child hchild => ih (List.cons_subset_cons id hmarked)
          (by rw [List.length_cons]; omega) (hpath.cons hw hchild)
      simpa only [Host.answerReporting, Host.answer_succ] using hbelow

end Reports

/-! ## Calls -/

/-- Every outcome of a program has a property. -/
def Always [Monad m] {α : Type} (p : α → Prop) (x : m α) : Prop :=
  ∃ y : m {a // p a}, x = Subtype.val <$> y

/-- A plain value is its own outcome. -/
theorem always_id {α : Type} {p : α → Prop} {x : Id α} : Always p x ↔ p x.run := by
  constructor
  · rintro ⟨y, rfl⟩
    exact y.run.property
  · intro h
    exact ⟨(pure ⟨x.run, h⟩ : Id {a // p a}), rfl⟩

section Always

variable [Monad m] [LawfulMonad m] {α β : Type} {p : α → Prop} {q : β → Prop} {x : m α}

theorem always_pure {a : α} (h : p a) : Always p (pure a : m α) := ⟨pure ⟨a, h⟩, by simp⟩

theorem always_trivial (x : m α) : Always (fun _ => True) x :=
  ⟨(fun a => ⟨a, trivial⟩) <$> x, by simp⟩

/-- Every outcome of two programs that run one after another is one of the second, after an outcome
of the first. -/
theorem Always.bind (hx : Always p x) {f : α → m β} (hf : ∀ a, p a → Always q (f a)) :
    Always q (x >>= f) := by
  obtain ⟨y, rfl⟩ := hx
  choose next hnext using hf
  refine ⟨y >>= fun a => next a.1 a.2, ?_⟩
  simp only [bind_map_left, map_bind]
  exact bind_congr fun a => hnext a.1 a.2

theorem Always.imp {q : α → Prop} (hx : Always p x) (h : ∀ a, p a → q a) : Always q x := by
  obtain ⟨y, rfl⟩ := hx
  exact ⟨(fun a => ⟨a.1, h a.1 a.2⟩) <$> y, by simp⟩

end Always

namespace Call

/-- What a call does in its walk, where `ask` gives the answers of registries. -/
def body [Monad m] (host : Host C P m) (ask : RegistryId → Walk m (Option Union)) :
    Call C P → Walk m Unit
  | wrapValue id _ => do let _ ← ask id
  | which id u => do let _ ← host.discriminate ask u.terminal (← host.registry id)
  | cast _ c v => do let _ ← host.see ask v.terminal c.recogniser

/-- The registry that a call tests the cases of without asking it. -/
def bottom : Call C P → List RegistryId
  | which id _ => [id]
  | wrapValue .. | cast .. => []

/-- What the memo that a call leaves and the visits that it makes keep to. -/
structure NeverReenters (w : World C P) (call : Call C P) (memo : Memo) (visits : List Visit) :
    Prop where
  /-- The registries on a stack differ. -/
  nodup : ∀ visit ∈ visits, visit.stack.Nodup
  /-- The stack is no longer than the world. -/
  length_le : ∀ visit ∈ visits, visit.stack.length ≤ w.size
  bottom : ∀ visit ∈ visits, call.bottom <:+ visit.below
  not_pending : ∀ visit ∈ visits, visit.slot ≠ some .pending
  /-- Nothing is pending when the call returns. -/
  finished : ∀ id : RegistryId, memo[id]? ≠ some .pending
  /-- The memo has the registries that were asked. -/
  asked : ∀ id : RegistryId, id ∈ memo ↔ ∃ visit ∈ visits, visit.registry = id

/-- What a call discriminates has no layers. -/
@[simp] theorem terminal_terminal (call : Call C P) : call.terminal.terminal = call.terminal := by
  cases call <;> exact Value.terminal_terminal _

section Walked

variable [Monad m] (call : Call C P) (host : Host C P m) (block depth : Nat)

/-- The walk of a call, which may go to some depth, and the memo that it leaves. -/
def walked : m Memo := do
  let (_, memo) ← (call.body host (host.answer block call.terminal depth)).run ∅
  return memo

/-- The walk of a call, the memo that it leaves, and the visits that it makes. -/
def reported : m (Memo × List Visit) := do
  let ask := host.noting.answerReporting record block call.terminal depth call.bottom
  let ((_, memo), visits) ← ((call.body host.noting ask).run ∅).run []
  return (memo, visits)

variable [LawfulMonad m] {call host} {w : World C P} (hworld : host.world = pure w)
include hworld

/-- Making a call is making its walk to the whole depth, with an empty memo and a new block. -/
theorem perform_eq : call.perform host = do
    let block ← host.fresh
    let _ ← call.walked host block host.depth
    return () := by
  cases call with
  | wrapValue id v => simp [perform, walked, body, terminal, Host.wrapValue, Host.walk]
  | which id u =>
      simp [perform, walked, body, terminal, Host.which, Host.walk, Union.terminal,
        Host.registry_eq hworld]
  | cast id c v => simp [perform, walked, body, terminal, Case.cast, Host.walk]

/-- A call makes sound visits. -/
theorem reports_body (hw : w.Sound) (hcall : call.Valid w) (hdepth : w.size ≤ depth) :
    Reports w [] call.bottom
      (call.body host.noting
        (host.noting.answerReporting record block call.terminal depth call.bottom))
      (call.body host (host.answer block call.terminal depth)) := by
  have hanswer : ∀ {stack : List RegistryId} {id : RegistryId}, w.Path (id :: stack) →
      Reports w [] stack
        (host.noting.answerReporting record block call.terminal depth stack id)
        (host.answer block call.terminal depth id) :=
    fun hpath => reports_answer _ hw hworld block depth (List.nil_subset _)
      (Nat.le_add_right_of_le hdepth) hpath
  cases call with
  | wrapValue id v =>
      exact (hanswer (World.path_singleton hcall)).bind fun _ => reports_pure ()
  | which id u =>
      have hpath : w.Path [id] := World.path_singleton hcall
      simp only [body, Host.registry_eq hworld, Host.registry_eq (Host.noting_world hworld),
        liftM_pure, pure_bind]
      exact (reports_discriminate _ _ fun child hchild => hanswer (hpath.cons hw hchild)).bind
        fun _ => reports_pure ()
  | cast id c v =>
      exact (reports_see _ _ c.recogniser fun child hchild => hanswer (World.path_singleton
        (hw.child_lt_size child id (Registry.mem_children hcall hchild)))).bind
        fun _ => reports_pure ()

/-- What a call does is what it does where visits are written down. -/
theorem fst_reported (hw : w.Sound) (hcall : call.Valid w) (hdepth : w.size ≤ depth) :
    Prod.fst <$> call.reported host block depth = call.walked host block depth := by
  obtain ⟨z, hy, hx⟩ := reports_body block depth hworld hw hcall hdepth ∅ Memo.pendingOn_empty
  simp only [reported, walked, hx, hy, map_bind, bind_map_left, map_pure, Reported.ran]

/-- A call makes sound visits, and nothing is pending when it returns. -/
theorem always_neverReenters (hw : w.Sound) (hcall : call.Valid w) (hdepth : w.size ≤ depth) :
    Always (fun out => call.NeverReenters w out.1 out.2) (call.reported host block depth) := by
  obtain ⟨z, -, hx⟩ := reports_body block depth hworld hw hcall hdepth ∅ Memo.pendingOn_empty
  have hkeeps : ∀ out : Reported w [] call.bottom ∅ Unit,
      call.NeverReenters w out.memo out.visits := fun out => {
    nodup := fun visit hvisit => (out.sound visit hvisit).path.nodup hw
    length_le := fun visit hvisit => (out.sound visit hvisit).path.length_le hw
    bottom := fun visit hvisit => (out.sound visit hvisit).above
    not_pending := fun visit hvisit => (out.sound visit hvisit).not_pending
    finished := fun id hid => List.not_mem_nil (out.pendingOn id hid)
    asked := fun id => by simp [out.asked] }
  refine ⟨(fun out => ⟨(out.memo, out.visits), hkeeps out⟩) <$> z, ?_⟩
  simp only [reported, hx, bind_map_left, Functor.map_map, Reported.ran, List.nil_append]
  rw [map_eq_pure_bind]

end Walked

section Pure

variable {w : World C P} {call : Call C P} (μ : Meaning C P) (block : Nat) {depth : Nat}

/-- The walk of a call follows a course, however deep it may go beyond the size of the world. -/
theorem exists_follows_body [Monad m] [LawfulMonad m] (note : Effect C P → m Unit) (hw : w.Sound)
    (hcall : call.Valid w) (hdepth : w.size ≤ depth) :
    ∃ course, Follows w note call.terminal (w.unmemoised hw.wellFounded μ block call.terminal) []
      (call.body (.observed w μ block note)
        ((Host.observed w μ block note).answer block call.terminal depth)) course () := by
  have hask : ∀ id < w.size, Follows w note call.terminal
      (w.unmemoised hw.wellFounded μ block call.terminal) []
      ((Host.observed w μ block note).answer block call.terminal depth id)
      (w.request hw.wellFounded μ block call.terminal id) _ := fun id hid =>
    follows_answer hw μ block call.terminal note depth id [] (World.path_singleton hid) hdepth
  cases call with
  | wrapValue id v => exact ⟨_, (hask id hcall).bind (follows_pure ())⟩
  | which id u =>
      have hworld : (Host.observed w μ block note).world = pure w := rfl
      simp only [body, Host.registry_eq hworld, liftM_pure, pure_bind]
      exact ⟨_, (follows_discriminate μ block id fun child hchild =>
        hask child (hw.child_lt_size child id hchild)).bind (follows_pure ())⟩
  | cast id c v =>
      exact ⟨_, (follows_see μ block id c fun child hchild =>
        hask child (hw.child_lt_size child id (Registry.mem_children hcall hchild))).bind
        (follows_pure ())⟩

/-- In the memo that a call leaves, every registry that was asked has its answer without a memo. -/
theorem slot_eq_done (hw : w.Sound) (hcall : call.Valid w) (hdepth : w.size ≤ depth)
    {id : RegistryId} {slot : Slot}
    (hslot : (call.walked (.ofWorld w μ block) block depth).run[id]? = some slot) :
    slot = .done (w.unmemoised hw.wellFounded μ block call.terminal id) := by
  obtain ⟨course, hfollows⟩ :=
    exists_follows_body μ block (fun _ => (pure () : Id Unit)) hw hcall hdepth
  obtain ⟨memo, htracks, hrun⟩ := hfollows ∅ [] Memo.tracks_empty
  have hreplay : ∀ effects : List (Effect C P),
      effects.forM (fun _ => (pure () : Id Unit)) = pure ⟨⟩ := by
    intro effects
    induction effects with
    | nil => rfl
    | cons _ rest ih => exact ih
  have hmemo : (call.walked (.ofWorld w μ block) block depth).run = memo := by
    rw [replay, hreplay] at hrun
    rw [Host.ofWorld_eq_observed, walked, hrun]
    rfl
  have hid := htracks id
  rw [← hmemo, hslot, if_neg List.not_mem_nil] at hid
  split at hid
  · exact Option.some.inj hid
  · cases hid

end Pure

end Call

/-! ## Reachable worlds -/

/-- No step of an evaluation without a memo tells of a registry that is asked again while it is
pending. -/
theorem Course.Step.effect?_ne_reentered {w : World C P} {terminal : Value} (step : Step C P)
    (label : String) : step.effect? w terminal ≠ some (.told (.reentered label)) := by
  cases step with
  | leave id found => cases found <;> simp [effect?]
  | _ => simp [effect?]

namespace World

variable {w : World C P}

/-- Wrapping a value gives what the registry of a number gives without a memo.  A number that no
registry has gives nothing both ways. -/
theorem Sound.wrapValue_eq_unmemoised (hw : w.Sound) (μ : Meaning C P) (block : Nat)
    (id : RegistryId) (v : Value) :
    ((Host.ofWorld w μ block).wrapValue id v).run
      = w.unmemoised hw.wellFounded μ block v.terminal id := by
  by_cases hid : id < w.size
  · exact hw.wrapValue_eq μ block hid v
  · have hvacant : w.registry id = .vacant := registry_eq_vacant (Nat.le_of_not_lt hid)
    have hnone : w.unmemoised hw.wellFounded μ block v.terminal id = none := by
      rw [unmemoised_eq, hvacant]
      rfl
    rw [hnone]
    cases hsize : w.size with
    | zero => simp [Host.wrapValue, Host.walk, Host.ofWorld, hsize, Host.answer]
    | succ size =>
        have hworld : (Host.ofWorld w μ block).world = pure w := rfl
        have hrun := Host.run_answerFrom hworld
          ((Host.ofWorld w μ block).answer block v.terminal size) block v.terminal id ∅
        rw [hvacant] at hrun
        rw [Host.ofWorld_eq_observed, Host.wrapValue, observed_walk, hsize, StateT.run'_eq]
        exact congrArg (fun ran : Id (Option Union × Memo) => ran.run.1) hrun

/-- The walk that a call makes in a reachable world enters no registry again, whatever its host
does.  Each time it asks a registry, the registries on the stack differ, with the one at the bottom
that a call for the case of a union is about; they are no more than the world has; and the one that
is asked is not pending.  When the call returns, no registry is pending, and the memo has those that
were asked.

Where casts and predicates are plain functions, nobody is told of a registry that was asked while it
was still being asked.  The memo that the call leaves holds, for each registry that was asked, what
a fresh wrap of the terminal value in that registry gives.

The walk may go as deep as it likes, beyond the size of the world. -/
theorem Reachable.never_reenters (hw : w.Reachable) (block : Nat) {depth : Nat}
    (hdepth : w.size ≤ depth) {call : Call C P} (hcall : call.Valid w) :
    (∀ {m : Type → Type} [Monad m] [LawfulMonad m] (host : Host C P m), host.world = pure w →
      (call.perform host = do
        let block ← host.fresh
        let _ ← call.walked host block host.depth
        return ()) ∧
      Prod.fst <$> call.reported host block depth = call.walked host block depth ∧
      Always (fun out => call.NeverReenters w out.1 out.2) (call.reported host block depth)) ∧
    ∀ μ : Meaning C P,
      (∀ label, .told (.reentered label) ∉ call.log w μ block) ∧
      ∀ (id : RegistryId) (slot : Slot),
        (call.walked (.ofWorld w μ block) block depth).run[id]? = some slot →
        ∃ answer, slot = .done answer ∧
          answer = ((Host.ofWorld w μ block).wrapValue id call.terminal).run ∧
          ∀ block', μ.Blind {block, block'} call.terminal →
            Outlined block block' call.terminal answer
              ((Host.ofWorld w μ block').wrapValue id call.terminal).run := by
  have hsound := hw.sound
  refine ⟨fun host hworld => ⟨call.perform_eq hworld,
      call.fst_reported block depth hworld hsound hcall hdepth,
      call.always_neverReenters block depth hworld hsound hcall hdepth⟩,
    fun μ => ⟨fun label hlabel => ?_, fun id slot hslot => ?_⟩⟩
  · rw [call.log_eq hsound μ block hcall, List.mem_filterMap] at hlabel
    obtain ⟨step, -, hstep⟩ := hlabel
    exact step.effect?_ne_reentered label hstep
  · have hfresh : ∀ b, ((Host.ofWorld w μ b).wrapValue id call.terminal).run
        = w.unmemoised hsound.wellFounded μ b call.terminal id := fun b => by
      rw [hsound.wrapValue_eq_unmemoised, call.terminal_terminal]
    refine ⟨_, call.slot_eq_done μ block hsound hcall hdepth hslot, (hfresh block).symm, ?_⟩
    intro block' hblind
    rw [hfresh block']
    exact w.outlined_unmemoised hsound.wellFounded hblind (.inl rfl) (.inr rfl) id

/-- In the diamond the registry at the bottom is asked from both branches.  A call for the case of a
union of the top has four visits, with the top below them all, and the memo that it leaves holds
what a fresh wrap in the bottom gives. -/
theorem diamond_never_reenters :
    let u : Union := ⟨⟨"top"⟩, .scalar ⟨0, 0⟩ (.int32 5)⟩
    let call : Call Empty Bool := .which 3 u
    let host := Host.ofWorld diamond constantMeaning
    let leaf : Union := ⟨⟨"leaf"⟩, u.inner⟩
    let out := (call.reported (host 7) 7 4).run
    diamond.size ≤ 4 ∧ call.Valid diamond ∧ (host 7).world = pure diamond ∧
      constantMeaning.Blind {7, 8} call.terminal ∧
      out.2.map Visit.stack = [[1, 3], [0, 1, 3], [2, 3], [0, 2, 3]] ∧
      call.NeverReenters diamond out.1 out.2 ∧
      (call.walked (host 7) 7 4).run[0]? = some (.done (some leaf)) ∧
      ((host 7).wrapValue 0 call.terminal).run = some leaf ∧
      Outlined 7 8 call.terminal (some leaf) ((host 8).wrapValue 0 call.terminal).run := by
  intro u call host leaf out
  have hvalid : call.Valid diamond := top_lt_size_diamond
  have hblind := constantMeaning_blind {7, 8} call.terminal
  have hstacks : out.2.map Visit.stack = [[1, 3], [0, 1, 3], [2, 3], [0, 2, 3]] := by
    unfold out host
    rw [diamond_eq]
    rfl
  have hslot : (call.walked (host 7) 7 4).run[0]? = some (.done (some leaf)) := by
    unfold host
    rw [diamond_eq]
    rfl
  obtain ⟨hwalk, hpure⟩ := diamond_reachable.never_reenters 7 diamond_size.le hvalid
  obtain ⟨-, -, hout⟩ := hwalk (host 7) rfl
  have hvisits := always_id.mp hout
  obtain ⟨answer, hanswer, hwrap, houtlined⟩ := (hpure constantMeaning).2 0 _ hslot
  obtain rfl : some leaf = answer := Slot.done.inj hanswer
  exact ⟨diamond_size.le, hvalid, rfl, hblind, hstacks, hvisits, hslot, hwrap.symm,
    houtlined 8 hblind⟩

end World

end CaseUnion
