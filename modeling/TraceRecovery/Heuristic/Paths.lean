import TraceRecovery.Heuristic.Basic
import TraceRecovery.Name.Overlap

/-!
# Resemblance of a name and a path

The share of the words of an item's name that occur among the directories of a unit. For a unit in
a package, directories that bear the name of a package do not count: they are found by names. No
word in common is no evidence, so a share of zero is an abstention. Interfaces that declare methods
are left to the heuristics for interfaces.
-/

namespace TraceRecovery

namespace PathMatch

/-- The directories of a unit that count. -/
def considered (packageNames : SortedSet String) (u : CodeUnit) : List String :=
  u.path.filter fun segment => !(u.hasPackage && packageNames.contains (Text.lower segment))

/-- The words of the directories that count. -/
def pathWords (packageNames : SortedSet String) (u : CodeUnit) : List String :=
  (considered packageNames u).flatMap Name.words

/-- The confidence of a candidate. -/
def score (t : Candidate) (c : Context) : Except TraceError Confidence :=
  if t.item.hasSignatures then .ok .unset
  else
    let share := Name.containedRatio (Name.words t.item.name) (pathWords c.packageNames t.unit)
    if share == 0 then .ok .unset else Confidence.ofValue share

end PathMatch

/-- The heuristic that compares an item's name with a unit's path. -/
def Heuristic.byPath : Heuristic where
  id := "path-resemblance"
  kind := .standalone
  score := PathMatch.score

end TraceRecovery
