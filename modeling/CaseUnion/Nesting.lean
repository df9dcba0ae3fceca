/-!
# Reachability in a nesting graph

The graph is given by the children of each node, and the nodes below a bound are those that may have
children. `search` looks for a target depth first.  It keeps the nodes still to be visited, the next
one first, and the nodes whose children it has read.  A node whose children were read is never read
again, so the search ends on graphs with shared children and with cycles too: each step either reads
a node for the first time or shortens the list of nodes to be visited.
-/

namespace CaseUnion.Nesting

/-- The outcome of a search. -/
structure Outcome where
  /-- Whether the target was met. -/
  found : Bool
  /-- The nodes whose children were read, the last one first. -/
  scanned : List Nat
deriving DecidableEq, Repr

/-- The number of nodes below a bound whose children were not read yet. -/
def unread (bound : Nat) (scanned : List Nat) : Nat :=
  ((List.range bound).filter fun node => !scanned.contains node).length

theorem unread_cons_lt {bound node : Nat} {scanned : List Nat} (hlt : node < bound)
    (hnew : node ∉ scanned) : unread bound (node :: scanned) < unread bound scanned := by
  have split : (List.range bound).filter (fun n => !(node :: scanned).contains n)
      = ((List.range bound).filter fun n => !scanned.contains n).filter fun n => n != node := by
    rw [List.filter_filter]
    refine List.filter_congr fun n _ => ?_
    by_cases h : n = node <;> simp [h]
  unfold unread
  rw [split]
  refine List.length_filter_lt_length_iff_exists.2 ⟨node, ?_, by simp⟩
  simp [hlt, hnew]

/-- Looks for a target from the nodes to be visited. -/
def search (children : Nat → List Nat) (bound target : Nat) (scanned : List Nat) :
    List Nat → Outcome
  | [] => ⟨false, scanned⟩
  | node :: rest =>
    if node = target then
      ⟨true, scanned⟩
    else if _ : node < bound ∧ node ∉ scanned then
      search children bound target (node :: scanned) (children node ++ rest)
    else
      search children bound target scanned rest
termination_by pending => (unread bound scanned, pending.length)
decreasing_by
  · rename_i h
    exact Prod.Lex.left _ _ (unread_cons_lt h.1 h.2)
  · exact Prod.Lex.right _ (by simp)

/-- Whether a target is a node or can be reached from it. -/
def reaches (children : Nat → List Nat) (bound node target : Nat) : Bool :=
  (search children bound target [] [node]).found

end CaseUnion.Nesting
