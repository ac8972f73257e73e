import TraceRecovery.Name.Words
import TraceRecovery.Result.Table
import TraceRecovery.SortedSet

/-!
# Heuristics

A heuristic gives a confidence to each candidate. A standalone heuristic looks only at the item and
the unit; a dependent one also reads the sealed tables of other nodes, the first of which is the
base that it extends. A heuristic is a function of the candidate and of the context, so scoring has
no effects and its order does not matter.
-/

namespace TraceRecovery

/-- What a heuristic can read while a node runs: both models, the sealed tables of the node's
dependencies in the order of their declaration, and two facts about the models that are computed
once for all candidates. -/
structure Context where
  architecture : Architecture
  code : Code
  dependencies : List Table
  /-- The names of all declared packages, in lower case. -/
  packageNames : SortedSet String
  /-- Every word of an item's name. -/
  architectureWords : SortedSet String

namespace Context

/-- The context of a node without dependencies. -/
def ofModels (architecture : Architecture) (code : Code) : Context where
  architecture := architecture
  code := code
  dependencies := []
  packageNames := .ofList (code.packages.map fun p => Text.lower p.name)
  architectureWords := .ofList (architecture.items.flatMap fun i => Name.words i.name)

/-- Refuses the first of some tables that is not sealed. -/
def ensureAllSealed : List Table → Except TraceError Unit
  | [] => .ok ()
  | t :: ts => do
    t.ensureSealed
    ensureAllSealed ts

/-- The context with the tables of the node's dependencies, all of which must be sealed. -/
def withDependencies (c : Context) (tables : List Table) : Except TraceError Context := do
  ensureAllSealed tables
  return { c with dependencies := tables }

/-- The table of a dependency. -/
def dependency (c : Context) (index : Nat) : Except TraceError Table :=
  match c.dependencies[index]? with
  | some t => .ok t
  | none => .error (.unresolved (.dependency index c.dependencies.length))

/-- The table that a dependent heuristic extends. -/
def base (c : Context) : Except TraceError Table := c.dependency 0

end Context

/-- Whether a heuristic reads the tables of other nodes. -/
inductive HeuristicKind where
  | standalone
  | dependent
deriving DecidableEq, Repr

/-- A rule that scores candidates. -/
structure Heuristic where
  /-- The name of the heuristic, which labels its nodes. -/
  id : String
  kind : HeuristicKind
  score : Candidate → Context → Except TraceError Confidence

end TraceRecovery
