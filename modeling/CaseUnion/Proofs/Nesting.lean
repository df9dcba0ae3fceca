import CaseUnion.Nesting
import Mathlib.Logic.Relation
import Mathlib.Order.WellFounded

/-!
# Exactness of the search in a nesting graph

A nesting graph is read upwards: `Nests children child parent` says that `child` is one of the
children of `parent`, and a path runs from a node to the nodes that contain it.

*Search.*  `reaches` is exact in both directions.  A hit comes with a path (`exists_path_of_found`).
A miss leaves a set of nodes that holds every node the search was asked about, is closed under
children and avoids the target (`exists_closed_of_not_found`).  The argument for a miss is the
invariant `Explored`: a node whose children were read has each of them read, pending, or beyond the
bound, where no node has children.  So a branch may be cut off at a node that another branch has
read, although the other branch need not have come to its end.

*Edges.*  In a graph without cycles, one more edge closes a cycle exactly when the parent can
already be reached from the child (`exists_cycle_withEdge_iff`).
-/

namespace CaseUnion.Nesting

open Relation (ReflTransGen TransGen)

/-- A node is one of the children of another one. -/
def Nests (children : Nat → List Nat) (child parent : Nat) : Prop := child ∈ children parent

/-! ## A hit -/

/-- If the target is met, there is a path from it to a node that was to be visited. -/
theorem exists_path_of_found (children : Nat → List Nat) (bound target : Nat)
    (scanned pending : List Nat) (h : (search children bound target scanned pending).found = true) :
    ∃ node ∈ pending, ReflTransGen (Nests children) target node := by
  fun_induction search children bound target scanned pending with
  | case1 => cases h
  | case2 scanned rest => exact ⟨target, List.mem_cons_self .., .refl⟩
  | case3 scanned node rest _ _ ih =>
      obtain ⟨found, hmem, path⟩ := ih h
      cases List.mem_append.mp hmem with
      | inl hchild => exact ⟨node, List.mem_cons_self .., path.tail hchild⟩
      | inr hrest => exact ⟨found, List.mem_cons_of_mem _ hrest, path⟩
  | case4 scanned node rest _ _ ih =>
      obtain ⟨found, hmem, path⟩ := ih h
      exact ⟨found, List.mem_cons_of_mem _ hmem, path⟩

/-! ## A miss -/

/-- What a search has settled so far.  The nodes that were read are not the target, and their
children were read, are pending, or lie beyond the bound. -/
structure Explored (children : Nat → List Nat) (bound target : Nat) (scanned pending : List Nat) :
    Prop where
  not_target : target ∉ scanned
  covered : ∀ node ∈ scanned, ∀ child ∈ children node,
    child ∈ scanned ∨ child ∈ pending ∨ (child ≠ target ∧ bound ≤ child)

theorem explored_nil (children : Nat → List Nat) (bound target : Nat) (pending : List Nat) :
    Explored children bound target [] pending where
  not_target := List.not_mem_nil
  covered := by simp

/-- Reading a node settles it and makes its children pending. -/
theorem Explored.read {children : Nat → List Nat} {bound target node : Nat}
    {scanned rest : List Nat} (h : Explored children bound target scanned (node :: rest))
    (hne : node ≠ target) :
    Explored children bound target (node :: scanned) (children node ++ rest) where
  not_target := by simp [h.not_target, hne.symm]
  covered := by
    intro parent hparent child hchild
    cases List.mem_cons.mp hparent with
    | inl heq =>
        subst heq
        exact .inr (.inl (List.mem_append_left _ hchild))
    | inr hscanned =>
        have := h.covered parent hscanned child hchild
        simp only [List.mem_cons, List.mem_append] at this ⊢
        tauto

/-- A pending node that was read before, or that lies beyond the bound, can be left out. -/
theorem Explored.skip {children : Nat → List Nat} {bound target node : Nat}
    {scanned rest : List Nat} (h : Explored children bound target scanned (node :: rest))
    (hne : node ≠ target) (hskip : ¬(node < bound ∧ node ∉ scanned)) :
    Explored children bound target scanned rest where
  not_target := h.not_target
  covered := by
    intro parent hparent child hchild
    rcases h.covered parent hparent child hchild with hread | hpending | hbeyond
    · exact .inl hread
    · cases List.mem_cons.mp hpending with
      | inl heq =>
          subst heq
          by_cases hread : child ∈ scanned
          · exact .inl hread
          · exact .inr (.inr ⟨hne, Nat.le_of_not_lt fun hlt => hskip ⟨hlt, hread⟩⟩)
      | inr hrest => exact .inr (.inl hrest)
    · exact .inr (.inr hbeyond)

/-- If the target is not met, some set holds every node that was read or was to be visited, is
closed under children, and does not hold the target.  It is the set that the search ends with: the
nodes that were read, and those beyond the bound. -/
theorem exists_closed_of_not_found {children : Nat → List Nat} {bound target : Nat}
    (hbound : ∀ node, bound ≤ node → children node = []) {scanned pending : List Nat}
    (hexplored : Explored children bound target scanned pending)
    (h : (search children bound target scanned pending).found = false) :
    ∃ closed : Nat → Prop, (∀ node ∈ scanned, closed node) ∧ (∀ node ∈ pending, closed node) ∧
      (∀ node, node ≠ target → bound ≤ node → closed node) ∧
      (∀ parent, closed parent → ∀ child ∈ children parent, closed child) ∧ ¬ closed target := by
  fun_induction search children bound target scanned pending with
  | case1 scanned =>
      refine ⟨fun node => node ∈ scanned ∨ (node ≠ target ∧ bound ≤ node), fun _ => .inl, by simp,
        fun node hne hle => .inr ⟨hne, hle⟩, ?_, by simp [hexplored.not_target]⟩
      rintro parent (hread | ⟨_, hle⟩) child hchild
      · rcases hexplored.covered parent hread child hchild with h' | h' | h'
        · exact .inl h'
        · cases h'
        · exact .inr h'
      · rw [hbound parent hle] at hchild
        cases hchild
  | case2 => cases h
  | case3 scanned node rest hne _ ih =>
      obtain ⟨closed, hscanned, hpending, hbeyond, hclosed, htarget⟩ := ih (hexplored.read hne) h
      refine ⟨closed, fun n hn => hscanned n (List.mem_cons_of_mem _ hn), ?_, hbeyond, hclosed,
        htarget⟩
      intro n hn
      cases List.mem_cons.mp hn with
      | inl heq => exact heq ▸ hscanned node (List.mem_cons_self ..)
      | inr hrest => exact hpending n (List.mem_append_right _ hrest)
  | case4 scanned node rest hne hskip ih =>
      obtain ⟨closed, hscanned, hpending, hbeyond, hclosed, htarget⟩ :=
        ih (hexplored.skip hne hskip) h
      refine ⟨closed, hscanned, ?_, hbeyond, hclosed, htarget⟩
      intro n hn
      cases List.mem_cons.mp hn with
      | inl heq =>
          subst heq
          by_cases hread : n ∈ scanned
          · exact hscanned n hread
          · exact hbeyond n hne (Nat.le_of_not_lt fun hlt => hskip ⟨hlt, hread⟩)
      | inr hrest => exact hpending n hrest

/-- A set closed under children holds every node from which a path leads into it. -/
theorem closed_of_path {children : Nat → List Nat} {closed : Nat → Prop}
    (hclosed : ∀ parent, closed parent → ∀ child ∈ children parent, closed child) {below node : Nat}
    (path : ReflTransGen (Nests children) below node) (hnode : closed node) : closed below := by
  induction path using ReflTransGen.head_induction_on with
  | refl => exact hnode
  | head hstep _ ih => exact hclosed _ ih _ hstep

/-- The search is exact: it meets the target if and only if the target is the node or can be
reached from it. -/
theorem reaches_iff {children : Nat → List Nat} {bound : Nat}
    (hbound : ∀ node, bound ≤ node → children node = []) (node target : Nat) :
    reaches children bound node target = true ↔ ReflTransGen (Nests children) target node := by
  constructor
  · intro h
    obtain ⟨found, hmem, path⟩ := exists_path_of_found children bound target [] [node] h
    rwa [List.mem_singleton.mp hmem] at path
  · intro path
    by_contra h
    obtain ⟨closed, -, hpending, -, hclosed, htarget⟩ :=
      exists_closed_of_not_found hbound (explored_nil children bound target [node])
        (Bool.eq_false_iff.mpr h)
    exact htarget (closed_of_path hclosed path (hpending node (List.mem_singleton_self node)))

/-! ## One more edge -/

section Edges

variable {α : Type*} {r : α → α → Prop}

/-- A relation with one more pair. -/
def WithEdge (r : α → α → Prop) (child parent a b : α) : Prop :=
  r a b ∨ (a = child ∧ b = parent)

/-- An edge whose parent is not below its child keeps the graph well-founded, since below the child
the edge is never used. -/
theorem wellFounded_withEdge (hr : WellFounded r) {child parent : α}
    (h : ¬ ReflTransGen r parent child) : WellFounded (WithEdge r child parent) := by
  have haccBelow : ∀ a, ReflTransGen r a child → Acc (WithEdge r child parent) a := by
    intro a
    induction a using hr.induction with
    | _ a ih =>
        intro path
        refine Acc.intro a fun b hb => ?_
        rcases hb with hb | ⟨_, hparent⟩
        · exact ih b hb (path.head hb)
        · exact absurd (hparent ▸ path) h
  refine ⟨fun a => ?_⟩
  induction a using hr.induction with
  | _ a ih =>
      refine Acc.intro a fun b hb => ?_
      rcases hb with hb | ⟨hchild, _⟩
      · exact ih b hb
      · exact hchild ▸ haccBelow child .refl

/-- A well-founded graph has no cycle. -/
theorem not_cycle (hr : WellFounded r) (a : α) : ¬ TransGen r a a :=
  fun h => hr.transGen.irrefl.irrefl a h

/-- In a well-founded graph an edge closes a cycle exactly when its parent is its child or below
it. -/
theorem exists_cycle_withEdge_iff (hr : WellFounded r) (child parent : α) :
    (∃ a, TransGen (WithEdge r child parent) a a) ↔ ReflTransGen r parent child := by
  constructor
  · rintro ⟨a, hcycle⟩
    by_contra h
    exact not_cycle (wellFounded_withEdge hr h) a hcycle
  · intro path
    have hpath : ReflTransGen (WithEdge r child parent) parent child :=
      ReflTransGen.mono (fun _ _ => Or.inl) _ _ path
    exact ⟨parent, TransGen.tail' hpath (.inr ⟨rfl, rfl⟩)⟩

end Edges

end CaseUnion.Nesting
