import TraceRecovery.Tree.Evaluation

/-!
# The work of a run

How many candidates the heuristic of each leaf is asked about when a tree is run. A dependent leaf
is not asked about candidates that its base defines, and no leaf is asked about anything behind the
first error.
-/

namespace TraceRecovery

/-- The number of candidates that are scored, up to the first error. -/
def Node.scoredCount (n : Node) (tables : List Table)
    (own : Candidate → Except TraceError Confidence) : List Candidate → Nat
  | [] => 0
  | t :: ts =>
    match n.carriedOver tables t with
    | some _ => n.scoredCount tables own ts
    | none =>
      match own t with
      | .ok _ => n.scoredCount tables own ts + 1
      | .error _ => 1

/-- The number of candidates that a node scores itself, given the tables published so far. -/
def Node.workload (n : Node) (s : CandidateSpace) (b : Board) : Nat :=
  let count : Except TraceError Nat := do
    let tables ← n.inputTables b
    let own ← n.ownScore s tables
    return n.scoredCount tables own s.candidates
  match count with
  | .ok k => k
  | .error _ => 0

/-- The workload of each of some nodes in turn, up to the first that fails. -/
def Tree.workloads (t : Tree) (s : CandidateSpace) : List NodeId → Board → List (NodeId × Nat)
  | [], _ => []
  | id :: rest, b =>
    match t.nodes[id]? with
    | none => []
    | some n =>
      (id, n.workload s b) ::
        match t.pass s false id b with
        | .ok next => t.workloads s rest next
        | .error _ => []

/-- The workload of each node that is run. -/
def Tree.workload (t : Tree) (s : CandidateSpace) : List (NodeId × Nat) :=
  t.workloads s t.listedTurns.ids .empty

end TraceRecovery
