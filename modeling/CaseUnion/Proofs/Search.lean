import CaseUnion.Proofs.History

/-!
# The search as a recursion

`Nesting.search` keeps a list of the nodes still to be visited.  The same search is a recursion
with those nodes on its stack.  To visit a node is to read its children and to visit these in turn,
until one of them leads to the target.  All visits share one set of visited nodes
(`Nesting.Visits`).

Every search is such a recursion (`Nesting.exists_visits`), and the recursion has one course only
(`Nesting.Visits.unique`), in which no node is read twice (`Nesting.Visits.nodup`).  Nothing is
asked of the graph.  It may have children that are shared or listed twice, and cycles, although no
reachable world has any.  So the check of a registration is exact in every world, and it ends there
(`World.reaches_exact`).
-/

namespace CaseUnion

open Relation (ReflTransGen TransGen)

namespace Nesting

/-- The recursion.  The nodes of a list are visited in turn until one of them leads to the target,
where some nodes were visited before.  It tells whether one did, and which nodes had their children
read, in order. -/
inductive Visits (children : Nat → List Nat) (target : Nat) :
    List Nat → List Nat → Bool → List Nat → Prop
  | exhausted (visited : List Nat) : Visits children target visited [] false []
  | hit (visited rest : List Nat) : Visits children target visited (target :: rest) true []
  /-- A node that was visited before is passed over. -/
  | again {visited rest reads : List Nat} {node : Nat} {found : Bool} (hne : node ≠ target)
      (hold : node ∈ visited) (hrest : Visits children target visited rest found reads) :
      Visits children target visited (node :: rest) found reads
  /-- A child leads to the target, and the nodes that are left are not visited. -/
  | leads {visited rest reads : List Nat} {node : Nat} (hne : node ≠ target)
      (hnew : node ∉ visited)
      (hchildren : Visits children target (node :: visited) (children node) true reads) :
      Visits children target visited (node :: rest) true (node :: reads)
  /-- No child leads to the target, and what was read below the node counts as visited. -/
  | fails {visited rest reads later : List Nat} {node : Nat} {found : Bool} (hne : node ≠ target)
      (hnew : node ∉ visited)
      (hchildren : Visits children target (node :: visited) (children node) false reads)
      (hrest : Visits children target (reads.reverse ++ node :: visited) rest found later) :
      Visits children target visited (node :: rest) found (node :: reads ++ later)

section Visits

variable {children : Nat → List Nat} {target : Nat} {visited nodes reads : List Nat} {found : Bool}

/-! ## The course of the recursion -/

/-- The recursion has one course. -/
theorem Visits.unique (h : Visits children target visited nodes found reads) {found' : Bool}
    {reads' : List Nat} (h' : Visits children target visited nodes found' reads') :
    found' = found ∧ reads' = reads := by
  induction h generalizing found' reads' with
  | exhausted =>
      cases h'
      exact ⟨rfl, rfl⟩
  | hit =>
      cases h' with
      | hit => exact ⟨rfl, rfl⟩
      | again hne | leads hne | fails hne => exact absurd rfl hne
  | again hne hold _ ih =>
      cases h' with
      | hit => exact absurd rfl hne
      | again _ _ hrest => exact ih hrest
      | leads _ hnew | fails _ hnew => exact absurd hold hnew
  | leads hne hnew _ ih =>
      cases h' with
      | hit => exact absurd rfl hne
      | again _ hold => exact absurd hold hnew
      | leads _ _ hchildren => exact ⟨rfl, by rw [(ih hchildren).2]⟩
      | fails _ _ hchildren => exact absurd (ih hchildren).1 Bool.false_ne_true
  | fails hne hnew _ _ ih ihrest =>
      cases h' with
      | hit => exact absurd rfl hne
      | again _ hold => exact absurd hold hnew
      | leads _ _ hchildren => exact absurd (ih hchildren).1.symm Bool.false_ne_true
      | fails _ _ hchildren hrest =>
          obtain ⟨-, rfl⟩ := ih hchildren
          obtain ⟨rfl, rfl⟩ := ihrest hrest
          exact ⟨rfl, rfl⟩

/-- No node is read twice, and none that was visited before.  The second carries the first, since
what is read below a node counts as visited afterwards. -/
theorem Visits.nodup (h : Visits children target visited nodes found reads) :
    reads.Nodup ∧ ∀ read ∈ reads, read ∉ visited := by
  induction h with
  | exhausted | hit => simp
  | again _ _ _ ih => exact ih
  | leads _ hnew _ ih =>
      obtain ⟨hnodup, hfresh⟩ := ih
      refine ⟨List.nodup_cons.mpr ⟨fun h => hfresh _ h (List.mem_cons_self ..), hnodup⟩, ?_⟩
      rintro read (_ | ⟨_, hread⟩)
      · exact hnew
      · exact fun h => hfresh read hread (List.mem_cons_of_mem _ h)
  | fails _ hnew _ _ ih ihrest =>
      obtain ⟨hnodup, hfresh⟩ := ih
      obtain ⟨hnodup', hfresh'⟩ := ihrest
      simp only [List.mem_cons, List.mem_append, List.mem_reverse, not_or] at hfresh hfresh'
      have hread : (_ :: _).Nodup := List.nodup_cons.mpr ⟨fun h => (hfresh _ h).1 rfl, hnodup⟩
      refine ⟨List.nodup_append.mpr ⟨hread, hnodup', ?_⟩, ?_⟩
      · rintro read (_ | ⟨_, hearly⟩) _ hlater rfl
        · exact (hfresh' _ hlater).2.1 rfl
        · exact (hfresh' _ hlater).1 hearly
      · intro read hread
        rcases List.mem_append.mp hread with hearly | hlater
        · cases hearly with
          | head => exact hnew
          | tail _ h => exact (hfresh read h).2
        · exact (hfresh' read hlater).2.2

/-- What is read lies below one of the nodes, or is one of them. -/
theorem Visits.exists_path (h : Visits children target visited nodes found reads) :
    ∀ read ∈ reads, ∃ node ∈ nodes, ReflTransGen (Nests children) read node := by
  have below : ∀ {node read : Nat} {rest : List Nat},
      (∃ child ∈ children node, ReflTransGen (Nests children) read child) →
      ∃ top ∈ node :: rest, ReflTransGen (Nests children) read top :=
    fun ⟨_, hchild, path⟩ => ⟨_, List.mem_cons_self .., path.tail hchild⟩
  have beside : ∀ {node read : Nat} {rest : List Nat},
      (∃ top ∈ rest, ReflTransGen (Nests children) read top) →
      ∃ top ∈ node :: rest, ReflTransGen (Nests children) read top :=
    fun ⟨_, htop, path⟩ => ⟨_, List.mem_cons_of_mem _ htop, path⟩
  induction h with
  | exhausted | hit => simp
  | again _ _ _ ih => exact fun read hread => beside (ih read hread)
  | leads _ _ _ ih =>
      rintro read (_ | ⟨_, hread⟩)
      · exact ⟨_, List.mem_cons_self .., .refl⟩
      · exact below (ih read hread)
  | fails _ _ _ _ ih ihrest =>
      rintro read hread
      rcases List.mem_append.mp hread with hearly | hlater
      · cases hearly with
        | head => exact ⟨_, List.mem_cons_self .., .refl⟩
        | tail _ h => exact below (ih read h)
      · exact beside (ihrest read hlater)

/-! ## The search -/

/-- Visits to the nodes of two lists: those to the first lead to the target, or those to the second
come after them. -/
theorem Visits.split {front back : List Nat}
    (h : Visits children target visited (front ++ back) found reads) :
    (found = true ∧ Visits children target visited front true reads) ∨
      ∃ early later, reads = early ++ later ∧ Visits children target visited front false early ∧
        Visits children target (early.reverse ++ visited) back found later := by
  induction front generalizing visited reads with
  | nil => exact .inr ⟨[], reads, rfl, .exhausted visited, h⟩
  | cons node front ih =>
      cases h with
      | hit => exact .inl ⟨rfl, .hit ..⟩
      | again hne hold hrest =>
          rcases ih hrest with ⟨hfound, hfront⟩ | ⟨early, later, hreads, hfront, hback⟩
          · exact .inl ⟨hfound, .again hne hold hfront⟩
          · exact .inr ⟨early, later, hreads, .again hne hold hfront, hback⟩
      | leads hne hnew hchildren => exact .inl ⟨rfl, .leads hne hnew hchildren⟩
      | @fails _ _ below _ _ _ hne hnew hchildren hrest =>
          rcases ih hrest with ⟨hfound, hfront⟩ | ⟨early, later, rfl, hfront, hback⟩
          · exact .inl ⟨hfound, .fails hne hnew hchildren hfront⟩
          · refine .inr ⟨node :: below ++ early, later, by simp,
              .fails hne hnew hchildren hfront, ?_⟩
            simpa using hback

/-- Every search is a recursion.  The children of a node come before the nodes that were pending, so
the visits part there (`Visits.split`).  The nodes that the search notes as scanned are those that
are read, except for those beyond the bound, which have no children. -/
theorem exists_visits {bound : Nat} (hbound : ∀ node, bound ≤ node → children node = [])
    (scanned pending : List Nat) (hvisited : ∀ node < bound, node ∈ visited ↔ node ∈ scanned) :
    ∃ reads,
      Visits children target visited pending (search children bound target scanned pending).found
        reads ∧
      (search children bound target scanned pending).scanned
        = (reads.filter (· < bound)).reverse ++ scanned := by
  fun_induction search children bound target scanned pending generalizing visited with
  | case1 scanned => exact ⟨[], .exhausted visited, rfl⟩
  | case2 scanned rest => exact ⟨[], .hit visited rest, rfl⟩
  | case3 scanned node rest hne hread ih =>
      obtain ⟨hlt, hnew⟩ := hread
      have hnew' : node ∉ visited := fun h => hnew ((hvisited node hlt).mp h)
      have hboth : ∀ other < bound, other ∈ node :: visited ↔ other ∈ node :: scanned :=
        fun other hother => by simp [hvisited other hother]
      obtain ⟨reads, hvisits, hscanned⟩ := ih hboth
      rw [hscanned]
      rcases hvisits.split with ⟨hfound, hchildren⟩ | ⟨early, later, rfl, hchildren, hrest⟩
      · rw [hfound]
        exact ⟨node :: reads, .leads hne hnew' hchildren, by simp [hlt]⟩
      · exact ⟨node :: early ++ later, .fails hne hnew' hchildren hrest, by simp [hlt]⟩
  | case4 scanned node rest hne hskip ih =>
      by_cases hold : node ∈ visited
      · obtain ⟨reads, hvisits, hscanned⟩ := ih hvisited
        exact ⟨reads, .again hne hold hvisits, hscanned⟩
      · have hge : bound ≤ node := Nat.le_of_not_lt fun hlt =>
          hskip ⟨hlt, fun h => hold ((hvisited node hlt).mpr h)⟩
        have hchildren : Visits children target (node :: visited) (children node) false [] := by
          rw [hbound node hge]
          exact .exhausted _
        have hbelow : ∀ other < bound, other ∈ node :: visited ↔ other ∈ scanned :=
          fun other hother => by
            simp [← hvisited other hother, Nat.ne_of_lt (Nat.lt_of_lt_of_le hother hge)]
        obtain ⟨reads, hvisits, hscanned⟩ := ih hbelow
        refine ⟨node :: reads, .fails hne hold hchildren hvisits, ?_⟩
        simpa [Nat.not_lt.mpr hge] using hscanned

end Visits

/-- A ring of three, where each node has one child twice and all share another, is read once
around. -/
example : search (fun node => [(node + 1) % 3, 2, (node + 1) % 3]) 3 3 [] [0]
    = ⟨false, [2, 1, 0]⟩ := by
  cbv

end Nesting

namespace World

open Nesting (Visits search)

variable {C P : Type}

/-- The check for recursive nesting is exact in every world, reachable or not.  It tells whether the
target is the registry or can be reached from it through one or more nested cases.  As a recursion
it comes to an end, in one way only, with that verdict.  It reads the cases of no registry twice,
and only of the registry itself and of those below it.  The search notes those of them that exist,
the last one first. -/
theorem reaches_exact (w : World C P) (id target : RegistryId) :
    (w.reaches id target = true ↔ target = id ∨ TransGen w.Nests target id) ∧
      ∃ reads, Visits w.children target [] [id] (w.reaches id target) reads ∧
        (∀ found other, Visits w.children target [] [id] found other →
          found = w.reaches id target ∧ other = reads) ∧
        reads.Nodup ∧ (∀ read ∈ reads, ReflTransGen w.Nests read id) ∧
        (search w.children w.size target [] [id]).scanned
          = (reads.filter (· < w.size)).reverse := by
  have hbound : ∀ node, w.size ≤ node → w.children node = [] := fun _ => w.children_eq_nil
  have hnone : ∀ node < w.size, node ∈ ([] : List RegistryId) ↔ node ∈ [] := fun _ _ => Iff.rfl
  obtain ⟨reads, hvisits, hscanned⟩ := Nesting.exists_visits hbound [] [id] hnone
  refine ⟨?_, reads, hvisits, fun found other h => hvisits.unique h, hvisits.nodup.1, ?_, ?_⟩
  · rw [w.reaches_iff, Relation.reflTransGen_iff_eq_or_transGen, eq_comm]
  · intro read hread
    obtain ⟨node, hnode, path⟩ := hvisits.exists_path read hread
    rwa [List.mem_singleton.mp hnode] at path
  · rwa [List.append_nil] at hscanned

end World

end CaseUnion
