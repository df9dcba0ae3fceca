import CaseUnion.Proofs.Unmemoised

/-!
# The course of an evaluation

`World.course` writes down what discrimination without a memo does, step by step: which registries
it enters and leaves, which cases it tests, which casts and checks it runs.  An evaluation of a
registry is a node of the course, with the course of its cases inside, however often it happens.
With shared nested registries the course is far longer than the world.

`Course.kept` reads a course from left to right and deletes every evaluation of a registry that was
evaluated before.  In place of it stands the step `recall`, with the answer that is asked for again.
What comes after the evaluation in the case that asked, its check, is kept.
-/

namespace CaseUnion

variable {C P : Type}

/-! ## Steps and courses -/

/-- Something that a walk has its host do. -/
inductive Effect (C P : Type) where
  | cast (cast : Cast C) (terminal : Value)
  | check (check : Check P) (item : Item)
  | told (event : Event)

namespace Course

/-- A step of an evaluation.  A case is named together with the registry it is a case of. -/
inductive Step (C P : Type) where
  /-- The evaluation of a registry begins. -/
  | enter (id : RegistryId)
  | test (id : RegistryId) (c : Case C P)
  | cast (id : RegistryId) (c : Case C P) (cast : Cast C)
  | check (id : RegistryId) (c : Case C P) (check : Check P) (item : Item)
  /-- The evaluation of a registry ends with the case that was found, if any, and its item. -/
  | leave (id : RegistryId) (found : Option (Case C P × Item))
  /-- The answer of a registry is asked for again. -/
  | recall (id : RegistryId) (answer : Option Union)

/-- What a step has the host do. -/
def Step.effect? (w : World C P) (terminal : Value) : Step C P → Option (Effect C P)
  | .cast _ _ conversion => some (.cast conversion terminal)
  | .check _ _ requirement item => some (.check requirement item)
  | .leave id (some (c, _)) =>
      some (.told (.matched (w.registry id).label c.info terminal.type))
  | .recall id answer => some (.told (.recalled (w.registry id).label answer.isSome))
  | .enter _ | .test .. | .leave _ none => none

end Course

/-- The course of an evaluation. -/
inductive Course (C P : Type) where
  | done
  | step (step : Course.Step C P) (rest : Course C P)
  /-- The evaluation of a registry, with the course of its cases, the case found and the answer. -/
  | evaluation (id : RegistryId) (inside : Course C P) (found : Option (Case C P × Item))
      (answer : Option Union) (rest : Course C P)

namespace Course

/-- One course after another. -/
def append : Course C P → Course C P → Course C P
  | done, b => b
  | step s rest, b => step s (rest.append b)
  | evaluation id inside found answer rest, b =>
      evaluation id inside found answer (rest.append b)

/-- The registries whose evaluation has ended after a course, given those before it. -/
def finished : List RegistryId → Course C P → List RegistryId
  | visited, done => visited
  | visited, step _ rest => rest.finished visited
  | visited, evaluation id inside _ _ rest =>
      if id ∈ visited then rest.finished visited
      else rest.finished (id :: inside.finished visited)

/-- The steps of a course without the evaluations of registries that were evaluated before. -/
def kept : List RegistryId → Course C P → List (Step C P)
  | _, done => []
  | visited, step s rest => s :: rest.kept visited
  | visited, evaluation id inside found answer rest =>
      if id ∈ visited then .recall id answer :: rest.kept visited
      else .enter id :: inside.kept visited
        ++ .leave id found :: rest.kept (id :: inside.finished visited)

@[simp] theorem finished_append (a b : Course C P) (visited : List RegistryId) :
    (a.append b).finished visited = b.finished (a.finished visited) := by
  induction a generalizing visited with
  | done => rfl
  | step s rest ih => exact ih visited
  | evaluation id inside found answer rest _ ih =>
      simp only [append, finished]
      split
      · exact ih visited
      · exact ih _

@[simp] theorem kept_append (a b : Course C P) (visited : List RegistryId) :
    (a.append b).kept visited = a.kept visited ++ b.kept (a.finished visited) := by
  induction a generalizing visited with
  | done => rfl
  | step s rest ih => exact congrArg (s :: ·) (ih visited)
  | evaluation id inside found answer rest _ ih =>
      simp only [append, kept, finished]
      split
      · exact congrArg (.recall id answer :: ·) (ih visited)
      · simp [ih]

/-! ## The course of one case and of several -/

section Cases

variable (μ : Meaning C P) (answers : RegistryId → Option Union) (terminal : Value)
  (request : RegistryId → Course C P)

/-- The source of a case: its cast, or the course of its nested registry. -/
def ofSource (id : RegistryId) (c : Case C P) : Course C P :=
  match c.recogniser.source with
  | .cast cast => step (.cast id c cast) done
  | .registry child => request child

/-- The check of a case, where its source gave an item. -/
def ofCheck (id : RegistryId) (c : Case C P) (item : Option Item) : Course C P :=
  match c.recogniser.check?, item with
  | some check, some item => step (.check id c check item) done
  | _, _ => done

/-- The test of a case, where `request` gives the courses of the nested registries. -/
def ofCase (id : RegistryId) (c : Case C P) : Course C P :=
  step (.test id c) <|
    (ofSource request id c).append (ofCheck id c (c.recogniser.sourced μ answers terminal))

/-- The tests of several cases, up to the first that recognises the value. -/
def ofCases (id : RegistryId) : List (Case C P) → Course C P
  | [] => done
  | c :: rest =>
      (ofCase μ answers terminal request id c).append <|
        if (c.recogniser.sees μ answers terminal).isSome then done else ofCases id rest

end Cases

end Course

/-! ## The course of a registry -/

namespace World

/-- What is done inside an evaluation of a registry without a memo. -/
def course (w : World C P) (h : WellFounded w.Nests) (μ : Meaning C P) (block : Nat)
    (terminal : Value) (id : RegistryId) : Course C P :=
  let answers := w.unmemoised h μ block terminal
  Course.ofCases μ answers terminal
    (fun child =>
      if _ : w.Nests child id then
        .evaluation child (w.course h μ block terminal child)
          ((w.registry child).firstSeen μ answers terminal) (answers child) .done
      else .done)
    id (w.registry id).cases
termination_by h.wrap id

/-- The evaluation of a registry without a memo. -/
def request (w : World C P) (h : WellFounded w.Nests) (μ : Meaning C P) (block : Nat)
    (terminal : Value) (id : RegistryId) : Course C P :=
  let answers := w.unmemoised h μ block terminal
  .evaluation id (w.course h μ block terminal id)
    ((w.registry id).firstSeen μ answers terminal) (answers id) .done

end World

section Equations

variable {μ : Meaning C P} {answers : RegistryId → Option Union} {terminal : Value}
  {request request' : RegistryId → Course C P}

theorem Course.ofCases_congr (id : RegistryId) {cs : List (Case C P)}
    (h : ∀ c ∈ cs, ∀ child, c.recogniser.child? = some child → request child = request' child) :
    Course.ofCases μ answers terminal request id cs
      = Course.ofCases μ answers terminal request' id cs := by
  induction cs with
  | nil => rfl
  | cons c rest ih =>
      have hcase : Course.ofCase μ answers terminal request id c
          = Course.ofCase μ answers terminal request' id c := by
        have hc := h c (List.mem_cons_self ..)
        cases hrecogniser : c.recogniser with
        | nested child guard =>
            simp [ofCase, ofSource, hrecogniser, Recogniser.source,
              hc child (by rw [hrecogniser]; rfl)]
        | _ => simp [ofCase, ofSource, hrecogniser, Recogniser.source]
      rw [ofCases, ofCases, hcase, ih fun d hd => h d (List.mem_cons_of_mem _ hd)]

/-- Inside the evaluation of a registry its cases are tested, and those ask nested registries. -/
theorem World.course_eq {w : World C P} (h : WellFounded w.Nests) (block : Nat)
    (id : RegistryId) :
    w.course h μ block terminal id
      = Course.ofCases μ (w.unmemoised h μ block terminal) terminal
          (w.request h μ block terminal) id (w.registry id).cases := by
  rw [World.course]
  exact Course.ofCases_congr id fun c hc child hchild =>
    dif_pos (Registry.mem_children hc hchild)

/-- The first evaluation of a registry is kept. -/
theorem World.kept_request {w : World C P} (h : WellFounded w.Nests) (block : Nat)
    {id : RegistryId} {visited : List RegistryId} (hid : id ∉ visited) :
    (w.request h μ block terminal id).kept visited
      = .enter id :: ((w.course h μ block terminal id).append
          (.step (.leave id ((w.registry id).firstSeen μ (w.unmemoised h μ block terminal)
            terminal)) .done)).kept visited := by
  simp [World.request, Course.kept, hid]

end Equations

end CaseUnion
