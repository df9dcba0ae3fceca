import CaseUnion.Proofs.Course

/-!
# Courses without repetition

The kept steps of a course enter no registry twice, and test, cast and check no case twice.  Every
such step has a *mark*, and the marks of the kept steps differ (`once_request`).

For the induction over nesting a course has marks of its own, those of the cases it tests, and marks
of registries further down.  The latter belong to registries that the course finishes and that were
not visited before it, so they differ from those of the courses around it.
-/

namespace CaseUnion.Course

open Relation (ReflTransGen TransGen)

variable {C P : Type}

/-! ## Marks -/

/-- What happens at most once in a call. -/
inductive Mark where
  | entered (id : RegistryId)
  | tested (id : RegistryId) (ordinal : Nat)
  | cast (id : RegistryId) (ordinal : Nat)
  | checked (id : RegistryId) (ordinal : Nat)
deriving DecidableEq

/-- The registry of a mark. -/
def Mark.registry : Mark → RegistryId
  | entered id | tested id _ | cast id _ | checked id _ => id

/-- The place of the case of a mark. -/
def Mark.ordinal? : Mark → Option Nat
  | entered _ => none
  | tested _ ordinal | cast _ ordinal | checked _ ordinal => some ordinal

/-- The mark of a step.  To leave a registry or to recall its answer is no step of its own. -/
def Step.mark? : Step C P → Option Mark
  | .enter id => some (.entered id)
  | .test id c => some (.tested id c.ordinal)
  | .cast id c _ => some (.cast id c.ordinal)
  | .check id c .. => some (.checked id c.ordinal)
  | .leave .. | .recall .. => none

/-- The marks of the kept steps. -/
def marks (visited : List RegistryId) (course : Course C P) : List Mark :=
  (course.kept visited).filterMap Step.mark?

@[simp] theorem marks_append (a b : Course C P) (visited : List RegistryId) :
    (a.append b).marks visited = a.marks visited ++ b.marks (a.finished visited) := by
  simp [marks]

/-- What was visited stays visited. -/
theorem subset_finished (course : Course C P) (visited : List RegistryId) :
    visited ⊆ course.finished visited := by
  induction course generalizing visited with
  | done => exact List.Subset.refl _
  | step s rest ih => exact ih visited
  | evaluation id inside result answer rest ihinside ihrest =>
      simp only [finished]
      split
      next => exact ihrest visited
      next =>
        exact fun other hother =>
          ihrest _ (List.mem_cons_of_mem _ (ihinside visited hother))

/-- The marks of a course differ.  Those that are not its own belong to registries further down that
the course finishes and that were not visited before it. -/
structure Once (own : Mark → Prop) (under : RegistryId → Prop) (visited : List RegistryId)
    (course : Course C P) : Prop where
  nodup : (course.marks visited).Nodup
  placed : ∀ mark ∈ course.marks visited, own mark ∨
    (under mark.registry ∧ mark.registry ∈ course.finished visited ∧ mark.registry ∉ visited)

/-! ## Marks that differ -/

section Once

variable {own own' : Mark → Prop} {under under' : RegistryId → Prop} {visited : List RegistryId}

theorem once_done : Once own under visited (.done : Course C P) where
  nodup := List.nodup_nil
  placed := by simp [marks, kept]

theorem once_step {s : Step C P} (hown : ∀ mark, s.mark? = some mark → own mark) :
    Once own under visited (.step s .done) := by
  have hmarks : marks visited (.step s .done) = s.mark?.toList := by
    cases hmark : s.mark? <;> simp [marks, kept, hmark]
  refine ⟨?_, fun mark hmark => .inl (hown mark ?_)⟩
  · rw [hmarks]
    cases s.mark? <;> simp
  · rw [hmarks] at hmark
    simpa using hmark

theorem Once.mono {course : Course C P} (hcourse : Once own under visited course)
    (hown : ∀ mark, own mark → own' mark) (hunder : ∀ id, under id → under' id) :
    Once own' under' visited course where
  nodup := hcourse.nodup
  placed mark hmark := (hcourse.placed mark hmark).imp (hown mark) (.imp_left (hunder _))

/-- Courses one after another, with own marks that differ and are not further down. -/
theorem Once.append {a b : Course C P} (ha : Once own under visited a)
    (hb : Once own' under (a.finished visited) b) (hown : ∀ mark, own mark → ¬ own' mark)
    (hunder : ∀ mark, own mark ∨ own' mark → ¬ under mark.registry) :
    Once (fun mark => own mark ∨ own' mark) under visited (a.append b) where
  nodup := by
    rw [marks_append]
    refine List.nodup_append.mpr ⟨ha.nodup, hb.nodup, fun mark hmarka other hmarkb heq => ?_⟩
    subst heq
    rcases ha.placed mark hmarka with howna | ⟨hundera, hfinished, -⟩ <;>
      rcases hb.placed mark hmarkb with hownb | ⟨hunderb, -, hvisited⟩
    · exact hown mark howna hownb
    · exact hunder mark (.inl howna) hunderb
    · exact hunder mark (.inr hownb) hundera
    · exact hvisited hfinished
  placed := by
    intro mark hmark
    rw [marks_append] at hmark
    rw [finished_append]
    rcases List.mem_append.mp hmark with hmarka | hmarkb
    · rcases ha.placed mark hmarka with howna | ⟨hundera, hfinished, hvisited⟩
      · exact .inl (.inl howna)
      · exact .inr ⟨hundera, subset_finished b _ hfinished, hvisited⟩
    · rcases hb.placed mark hmarkb with hownb | ⟨hunderb, hfinished, hvisited⟩
      · exact .inl (.inr hownb)
      · exact .inr ⟨hunderb, hfinished, fun hbefore => hvisited (subset_finished a _ hbefore)⟩

end Once

/-! ## The courses of registries are without repetition -/

section Registries

variable {w : World C P} (h : WellFounded w.Nests) (μ : Meaning C P) (block : Nat)
  (terminal : Value)

/-- A mark of a case of a registry. -/
def Mark.Of (id : RegistryId) (c : Case C P) (mark : Mark) : Prop :=
  mark.registry = id ∧ mark.ordinal? = some c.ordinal

theorem once_ofCheck (id : RegistryId) (c : Case C P) (item : Option Item)
    {under : RegistryId → Prop} {visited : List RegistryId} :
    Once (· = .checked id c.ordinal) under visited (ofCheck id c item) := by
  unfold ofCheck
  split
  · exact once_step (by simp [Step.mark?, eq_comm])
  · exact once_done

theorem once_ofSource (id : RegistryId) (c : Case C P)
    (hrequest : ∀ child, c.recogniser.child? = some child → ∀ visited,
      Once (fun _ => False) (TransGen w.Nests · id) visited (w.request h μ block terminal child))
    (visited : List RegistryId) :
    Once (· = .cast id c.ordinal) (TransGen w.Nests · id) visited
      (ofSource (w.request h μ block terminal) id c) := by
  unfold ofSource
  cases hsource : c.recogniser.source with
  | cast conversion => exact once_step (by simp [Step.mark?, eq_comm])
  | registry child =>
      exact (hrequest child (Recogniser.child?_eq_some_iff.mpr hsource) visited).mono
        (fun _ => False.elim) fun _ hbelow => hbelow

theorem once_ofCase (id : RegistryId) (c : Case C P)
    (hrequest : ∀ child, c.recogniser.child? = some child → ∀ visited,
      Once (fun _ => False) (TransGen w.Nests · id) visited (w.request h μ block terminal child))
    (visited : List RegistryId) :
    Once (Mark.Of id c) (TransGen w.Nests · id) visited
      (ofCase μ (w.unmemoised h μ block terminal) terminal (w.request h μ block terminal)
        id c) := by
  have hid : ¬ TransGen w.Nests id id := Nesting.not_cycle h id
  have hsource := once_ofSource h μ block terminal id c hrequest visited
  have hchecked := hsource.append (once_ofCheck id c
    (c.recogniser.sourced μ (w.unmemoised h μ block terminal) terminal))
    (by rintro _ rfl heq; cases heq) (by rintro _ (rfl | rfl) <;> exact hid)
  have htest : Once (C := C) (P := P) (· = .tested id c.ordinal) (TransGen w.Nests · id) visited
      (.step (.test id c) .done) := once_step (by simp [Step.mark?, eq_comm])
  refine (htest.append hchecked (by rintro _ rfl (heq | heq) <;> cases heq)
    (by rintro _ (rfl | rfl | rfl) <;> exact hid)).mono ?_ fun _ hbelow => hbelow
  rintro _ (rfl | rfl | rfl) <;> exact ⟨rfl, rfl⟩

/-- Cases with different ordinals have different marks. -/
theorem once_ofCases {id : RegistryId}
    (hrequest : ∀ child ∈ w.children id, ∀ visited,
      Once (fun _ => False) (TransGen w.Nests · id) visited (w.request h μ block terminal child))
    {cs : List (Case C P)} (hcases : cs ⊆ (w.registry id).cases)
    (hordinals : (cs.map Case.ordinal).Nodup) (visited : List RegistryId) :
    Once (fun mark => ∃ c ∈ cs, Mark.Of id c mark) (TransGen w.Nests · id) visited
      (ofCases μ (w.unmemoised h μ block terminal) terminal (w.request h μ block terminal)
        id cs) := by
  induction cs generalizing visited with
  | nil => exact once_done
  | cons c rest ih =>
      rw [List.map_cons, List.nodup_cons] at hordinals
      rw [List.cons_subset] at hcases
      have hcase := once_ofCase h μ block terminal id c (fun child hchild => hrequest child
        (Registry.mem_children hcases.1 hchild)) visited
      have hrest : Once (fun mark => ∃ d ∈ rest, Mark.Of id d mark) (TransGen w.Nests · id)
          ((ofCase μ (w.unmemoised h μ block terminal) terminal (w.request h μ block terminal)
            id c).finished visited)
          (if (c.recogniser.sees μ (w.unmemoised h μ block terminal) terminal).isSome then .done
            else ofCases μ (w.unmemoised h μ block terminal) terminal
              (w.request h μ block terminal) id rest) := by
        split
        · exact once_done
        · exact ih hcases.2 hordinals.2 _
      refine (hcase.append hrest ?_ ?_).mono (fun mark hmark => ?_) fun _ hbelow => hbelow
      · rintro mark ⟨-, hc⟩ ⟨d, hd, -, hother⟩
        have hordinal : c.ordinal = d.ordinal := Option.some.inj (hc.symm.trans hother)
        exact hordinals.1 (hordinal ▸ List.mem_map_of_mem hd)
      · rintro mark (⟨rfl, -⟩ | ⟨d, -, rfl, -⟩) <;> exact Nesting.not_cycle h _
      · rcases hmark with hc | ⟨d, hd, hmark⟩
        · exact ⟨c, List.mem_cons_self .., hc⟩
        · exact ⟨d, List.mem_cons_of_mem _ hd, hmark⟩

/-- The evaluation of a registry does nothing twice. -/
theorem once_request (hordered : ∀ id, (w.registry id).Ordered) (id : RegistryId) :
    ∀ visited, Once (fun _ => False) (ReflTransGen w.Nests · id) visited
      (w.request h μ block terminal id) := by
  induction id using h.induction with
  | _ id ih =>
      intro visited
      by_cases hvisited : id ∈ visited
      · have hmarks : (w.request h μ block terminal id).marks visited = [] := by
          simp [marks, World.request, kept, hvisited, Step.mark?]
        exact ⟨by simp [hmarks], by simp [hmarks]⟩
      · have hinside := once_ofCases h μ block terminal (fun child hchild visited =>
          (ih child hchild visited).mono (fun _ => False.elim)
            fun _ hbelow => TransGen.tail' hbelow hchild)
          (List.Subset.refl _) (hordered id).nodup_ordinals visited
        rw [← World.course_eq] at hinside
        have hmarks : (w.request h μ block terminal id).marks visited
            = .entered id :: (w.course h μ block terminal id).marks visited := by
          simp [marks, World.request, kept, hvisited, Step.mark?]
        have hfinished : (w.request h μ block terminal id).finished visited
            = id :: (w.course h μ block terminal id).finished visited := by
          simp [World.request, finished, hvisited]
        refine ⟨?_, fun mark hmark => .inr ?_⟩
        · rw [hmarks, List.nodup_cons]
          refine ⟨fun hentered => ?_, hinside.nodup⟩
          rcases hinside.placed _ hentered with ⟨c, -, -, hordinal⟩ | ⟨hbelow, -⟩
          · cases hordinal
          · exact Nesting.not_cycle h id hbelow
        · rw [hmarks] at hmark
          rw [hfinished]
          rcases List.mem_cons.mp hmark with rfl | hmark
          · exact ⟨.refl, List.mem_cons_self .., hvisited⟩
          · rcases hinside.placed mark hmark with ⟨c, -, rfl, -⟩ | ⟨hbelow, hmem, hnew⟩
            · exact ⟨.refl, List.mem_cons_self .., hvisited⟩
            · exact ⟨hbelow.to_reflTransGen, List.mem_cons_of_mem _ hmem, hnew⟩

end Registries

end CaseUnion.Course
