import TraceRecovery.Heuristic.Inheritance
import TraceRecovery.Heuristic.Names
import TraceRecovery.Heuristic.Paths
import TraceRecovery.Settings
import TraceRecovery.Tree.Draft

/-!
# The standard tree

The tree that is run where no other is given. Names and paths are weighed against each other, and
the two heuristics that carry links further, to companions and along inheritance, extend the result
of that. The root takes the greatest confidence of all:

* the weighted mean of names and paths,
* names of units outside packages,
* names of interfaces,
* companions of linked units,
* units that inherit from linked units.
-/

namespace TraceRecovery

namespace Tree

/-- The name of the standard tree. -/
def standardName : String := "standard"

/-- The label of the node that weighs names and paths. -/
def weightedLabel : String := "weighted-name-path"

/-- The standard tree under some settings, which must be in range. -/
def standard (s : Settings) : Except TraceError Tree := do
  s.validate
  let p := s.preprocessor
  let d := Draft.empty standardName
  let (name, d) := d.addLeaf (.byName .component p)
  let (path, d) := d.addLeaf .byPath
  let (weighted, d) := d.addInner (.weighted s.weights) [name, path]
  let d ← d.relabel weighted weightedLabel
  let (outside, d) := d.addLeaf (.byName .componentWithoutPackage p)
  let (interfaces, d) := d.addLeaf (.byName .interface p)
  let (companions, d) := d.addLeaf (.byCompanions s.commonWords)
  let d ← d.dependsOn companions weighted
  let (heirs, d) := d.addLeaf .byInheritance
  let d ← d.dependsOn heirs weighted
  let (root, d) := d.addInner .max [weighted, outside, interfaces, companions, heirs]
  d.build root

end Tree

end TraceRecovery
