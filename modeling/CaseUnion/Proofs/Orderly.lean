import CaseUnion.Proofs.Course

/-!
# Courses in order

What may come before a step of an evaluation, and why every kept step of a course is *justified* by
the steps before it.  A case is tested after every case declared earlier was tested and saw nothing.
A check runs on the item that the cast or the nested registry of its case gave before.  A registry
that is asked again gives what its evaluation found.

The invariant is that the registries visited so far have been left, each with the case that was
found.  A course that keeps it is *orderly*, and orderly courses can be put one after another.  The
induction for registries is over nesting, and for the cases of one registry over the list.
-/

namespace CaseUnion.Course

variable {C P : Type}

/-! ## Justified steps -/

section Order

variable (w : World C P) (h : WellFounded w.Nests) (μ : Meaning C P) (block : Nat)
  (terminal : Value)

/-- The case that the evaluation of a registry finds, with the item it sees. -/
def found (id : RegistryId) : Option (Case C P × Item) :=
  (w.registry id).firstSeen μ (w.unmemoised h μ block terminal) terminal

/-- The source of a case was asked: its cast was run, or its nested registry was left. -/
def Asked (before : List (Step C P)) (id : RegistryId) (c : Case C P) : Prop :=
  match c.recogniser.source with
  | .cast conversion => .cast id c conversion ∈ before
  | .registry child => .leave child (found w h μ block terminal child) ∈ before

/-- What has to come before a step.

* A handle tests its case first of all.  A registry tests a case after it was entered, and after
  every case declared earlier was tested and saw nothing.
* A cast follows the test of its case.
* A check follows the source of its case and runs on the item that the source gave.
* A registry is left with the case that it finds.
* It answers again with the union of the case that was found when it was left. -/
def Step.Justified (before : List (Step C P)) : Step C P → Prop
  | .enter _ => True
  | .test id c =>
      before = [] ∨
        (.enter id ∈ before ∧ ∃ earlier later, (w.registry id).cases = earlier ++ c :: later ∧
          ∀ d ∈ earlier, .test id d ∈ before ∧
            d.recogniser.sees μ (w.unmemoised h μ block terminal) terminal = none)
  | .cast id c conversion => .test id c ∈ before ∧ c.recogniser.source = .cast conversion
  | .check id c requirement item =>
      .test id c ∈ before ∧ c.recogniser.check? = some requirement ∧
        c.recogniser.sourced μ (w.unmemoised h μ block terminal) terminal = some item ∧
        Asked w h μ block terminal before id c
  | .leave id result => .enter id ∈ before ∧ result = found w h μ block terminal id
  | .recall id answer =>
      ∃ result, .leave id result ∈ before ∧
        answer = result.map fun (c, item) =>
          ⟨(w.registry id).tag, c.recogniser.stored block terminal item⟩

/-- Every step is justified by the steps before it. -/
def Justified (before : List (Step C P)) : List (Step C P) → Prop
  | [] => True
  | s :: rest => s.Justified w h μ block terminal before ∧ Justified (before ++ [s]) rest

/-- The registries that were visited have been left with the case that was found. -/
def Recorded (before : List (Step C P)) (visited : List RegistryId) : Prop :=
  ∀ id ∈ visited, .leave id (found w h μ block terminal id) ∈ before

/-- After the steps before it, every kept step of a course is justified, and the registries visited
in the end have been left. -/
structure Orderly (before : List (Step C P)) (visited : List RegistryId) (course : Course C P) :
    Prop where
  justified : Justified w h μ block terminal before (course.kept visited)
  recorded : Recorded w h μ block terminal (before ++ course.kept visited) (course.finished visited)

variable {w h μ block terminal} {before : List (Step C P)} {visited : List RegistryId}

theorem justified_append (a b : List (Step C P)) :
    Justified w h μ block terminal before (a ++ b)
      ↔ Justified w h μ block terminal before a ∧
        Justified w h μ block terminal (before ++ a) b := by
  induction a generalizing before with
  | nil => simp [Justified]
  | cons s rest ih => simp [Justified, ih, and_assoc]

theorem Recorded.append (hrecorded : Recorded w h μ block terminal before visited)
    (steps : List (Step C P)) : Recorded w h μ block terminal (before ++ steps) visited :=
  fun id hid => List.mem_append_left _ (hrecorded id hid)

theorem orderly_done (hrecorded : Recorded w h μ block terminal before visited) :
    Orderly w h μ block terminal before visited .done where
  justified := trivial
  recorded := hrecorded.append []

theorem orderly_step (hrecorded : Recorded w h μ block terminal before visited) {s : Step C P}
    (hs : s.Justified w h μ block terminal before) :
    Orderly w h μ block terminal before visited (.step s .done) where
  justified := ⟨hs, trivial⟩
  recorded := hrecorded.append [s]

/-- Orderly courses one after another are orderly. -/
theorem Orderly.append {a b : Course C P} (ha : Orderly w h μ block terminal before visited a)
    (hb : Orderly w h μ block terminal (before ++ a.kept visited) (a.finished visited) b) :
    Orderly w h μ block terminal before visited (a.append b) where
  justified := by
    rw [kept_append, justified_append]
    exact ⟨ha.justified, hb.justified⟩
  recorded := by
    rw [kept_append, finished_append, ← List.append_assoc]
    exact hb.recorded

/-! ## The courses of registries are in order -/

theorem orderly_ofCheck {id : RegistryId} {c : Case C P}
    (hrecorded : Recorded w h μ block terminal before visited) (htest : .test id c ∈ before)
    (hasked : Asked w h μ block terminal before id c) :
    Orderly w h μ block terminal before visited
      (ofCheck id c (c.recogniser.sourced μ (w.unmemoised h μ block terminal) terminal)) := by
  unfold ofCheck
  split
  next requirement item hcheck hitem =>
    exact orderly_step hrecorded ⟨htest, hcheck, hitem, hasked⟩
  next => exact orderly_done hrecorded

/-- A registry that was asked for is among those finished. -/
theorem mem_finished_request (id : RegistryId) :
    id ∈ (w.request h μ block terminal id).finished visited := by
  simp only [World.request, finished]
  split
  next hvisited => exact hvisited
  next => exact List.mem_cons_self ..

/-- After its source a case has been asked. -/
theorem orderly_ofSource (id : RegistryId) (c : Case C P)
    (hrequest : ∀ child, c.recogniser.child? = some child → ∀ before visited,
      Recorded w h μ block terminal before visited →
      Orderly w h μ block terminal before visited (w.request h μ block terminal child))
    (hrecorded : Recorded w h μ block terminal before visited) (htest : .test id c ∈ before) :
    Orderly w h μ block terminal before visited (ofSource (w.request h μ block terminal) id c) ∧
      Asked w h μ block terminal
        (before ++ (ofSource (w.request h μ block terminal) id c).kept visited) id c := by
  unfold ofSource Asked
  cases hsource : c.recogniser.source with
  | cast conversion => exact ⟨orderly_step hrecorded ⟨htest, hsource⟩, by simp [kept]⟩
  | registry child =>
      have hchild := hrequest child (Recogniser.child?_eq_some_iff.mpr hsource) _ _ hrecorded
      exact ⟨hchild, hchild.recorded child (mem_finished_request child)⟩

theorem orderly_ofCase (id : RegistryId) (c : Case C P)
    (hrequest : ∀ child, c.recogniser.child? = some child → ∀ before visited,
      Recorded w h μ block terminal before visited →
      Orderly w h μ block terminal before visited (w.request h μ block terminal child))
    (hrecorded : Recorded w h μ block terminal before visited)
    (htest : (Step.test id c).Justified w h μ block terminal before) :
    Orderly w h μ block terminal before visited
      (ofCase μ (w.unmemoised h μ block terminal) terminal (w.request h μ block terminal)
        id c) := by
  have htested : .test id c ∈ before ++ [.test id c] := by simp
  obtain ⟨hsource, hasked⟩ :=
    orderly_ofSource id c hrequest (hrecorded.append [.test id c]) htested
  have hchecked := orderly_ofCheck hsource.recorded (List.mem_append_left _ htested) hasked
  exact (orderly_step hrecorded htest).append (hsource.append hchecked)

/-- The cases of a registry are tested in order, each after those before it saw nothing. -/
theorem orderly_ofCases {id : RegistryId}
    (hrequest : ∀ child ∈ w.children id, ∀ before visited,
      Recorded w h μ block terminal before visited →
      Orderly w h μ block terminal before visited (w.request h μ block terminal child))
    {cs earlier : List (Case C P)} (hcases : (w.registry id).cases = earlier ++ cs)
    (hrecorded : Recorded w h μ block terminal before visited) (henter : .enter id ∈ before)
    (hearlier : ∀ d ∈ earlier, .test id d ∈ before ∧
      d.recogniser.sees μ (w.unmemoised h μ block terminal) terminal = none) :
    Orderly w h μ block terminal before visited
      (ofCases μ (w.unmemoised h μ block terminal) terminal (w.request h μ block terminal)
        id cs) := by
  induction cs generalizing before visited earlier with
  | nil => exact orderly_done hrecorded
  | cons c rest ih =>
      have hcase := orderly_ofCase id c (fun child hchild => hrequest child
        (Registry.mem_children (by simp [hcases]) hchild)) hrecorded
        (.inr ⟨henter, earlier, rest, hcases, hearlier⟩)
      refine hcase.append ?_
      split
      next => exact orderly_done hcase.recorded
      next hnone =>
        have hsplit : (w.registry id).cases = (earlier ++ [c]) ++ rest := by simp [hcases]
        refine ih hsplit hcase.recorded (List.mem_append_left _ henter) fun d hd => ?_
        rcases List.mem_append.mp hd with hold | hnew
        · exact ⟨List.mem_append_left _ (hearlier d hold).1, (hearlier d hold).2⟩
        · rw [List.mem_singleton.mp hnew]
          exact ⟨by simp [ofCase, kept], by simpa using hnone⟩

/-- The evaluation of a registry is orderly.  One that is asked again was left before. -/
theorem orderly_request (id : RegistryId) : ∀ before visited,
    Recorded w h μ block terminal before visited →
    Orderly w h μ block terminal before visited (w.request h μ block terminal id) := by
  induction id using h.induction with
  | _ id ih =>
      intro before visited hrecorded
      by_cases hvisited : id ∈ visited
      · have hrecall : (Step.recall id (w.unmemoised h μ block terminal id)).Justified
            w h μ block terminal before := by
          refine ⟨_, hrecorded id hvisited, ?_⟩
          rw [World.unmemoised_eq, Registry.answer_eq]
          rfl
        have hcourse := orderly_step hrecorded hrecall
        exact ⟨by simpa [World.request, kept, hvisited] using hcourse.justified,
          by simpa [World.request, kept, finished, hvisited] using hcourse.recorded⟩
      · have hsplit : (w.registry id).cases = [] ++ (w.registry id).cases := rfl
        have hinside := orderly_ofCases ih hsplit (hrecorded.append [.enter id]) (by simp) (by simp)
        rw [← World.course_eq] at hinside
        have hcourse := hinside.append (orderly_step hinside.recorded
          (s := .leave id (found w h μ block terminal id)) ⟨by simp, rfl⟩)
        refine ⟨?_, fun other hother => ?_⟩
        · rw [World.kept_request _ _ hvisited]
          exact ⟨trivial, hcourse.justified⟩
        · rw [World.kept_request _ _ hvisited]
          have hfinished : other = id ∨
              other ∈ (w.course h μ block terminal id).finished visited := by
            simpa [World.request, finished, hvisited] using hother
          rcases hfinished with rfl | hinner
          · simp [kept, found]
          · have hleft := hcourse.recorded other (by simpa [finished] using hinner)
            rwa [List.append_assoc] at hleft

end Order

end CaseUnion.Course
