import TraceRecovery.Text.Quoted
import TraceRecovery.Tree.Node

/-!
# Descriptions of nodes

What a node computes and what it reads, on one line, for those who look into a tree.
-/

namespace TraceRecovery

/-- The numbers of some nodes as a list. -/
def describeIds (ids : List NodeId) : String :=
  "[" ++ Text.join ", " (ids.map fun id => s!"NodeId({id})") ++ "]"

/-- The description of an aggregation. -/
def Aggregation.describe : Aggregation → String
  | average => "Average"
  | min => "Min"
  | max => "Max"
  | weighted ws => "Weighted(" ++ numberList ws ++ ")"

/-- The description of what a node computes. -/
def NodeKind.describe : NodeKind → String
  | .leaf h dependencies =>
    "Heuristic \x7b heuristic: " ++ Text.quoted h.id ++ ", dependencies: " ++
      describeIds dependencies ++ " \x7d"
  | .inner a children =>
    "Aggregation \x7b policy: " ++ a.describe ++ ", children: " ++ describeIds children ++ " \x7d"

end TraceRecovery
