import TraceRecovery.Heuristic.Basic
import TraceRecovery.Name.Overlap
import TraceRecovery.Name.Preprocessing

/-!
# Resemblance of names

An item and a unit resemble each other when every word of the item's name is a word of the unit's
name or of the name of one of its types. The fewer other words that name has, the higher is the
confidence. Interfaces that declare methods are scored in a scope of their own, where an interface
of the code that matches counts fully, and where the conventional capital `I` in front of the
item's name may be left out.
-/

namespace TraceRecovery

/-- Which items and units are compared by their names. -/
inductive NameScope where
  /-- Components, and interfaces without methods. -/
  | component
  /-- The same items, with units that are in no package. -/
  | componentWithoutPackage
  /-- Interfaces that declare methods. -/
  | interface
deriving DecidableEq, Repr

namespace NameScope

/-- The name of a scope in labels and documents. -/
def name : NameScope → String
  | component => "component"
  | componentWithoutPackage => "component_without_package"
  | interface => "interface"

/-- The scope with a name. -/
def ofName? : String → Option NameScope
  | "component" => some component
  | "component_without_package" => some componentWithoutPackage
  | "interface" => some interface
  | _ => none

/-- Whether a candidate is in the scope. -/
def admits (scope : NameScope) (t : Candidate) : Bool :=
  (decide (scope = interface) == t.item.hasSignatures) &&
    !(decide (scope = componentWithoutPackage) && t.unit.hasPackage)

end NameScope

namespace NameMatch

/-- The name behind a capital `I` that another upper-case letter follows. -/
def withoutInterfaceMark? (name : String) : Option String :=
  match name.toList with
  | 'I' :: c :: rest => if Text.isUppercase c then some (String.ofList (c :: rest)) else none
  | _ => none

/-- The words that an item is looked up by, and those that are tried after them. -/
structure Wanted where
  words : List String
  fallback : Option (List String)

/-- The words of an item's name; in the interface scope also those without the interface mark. -/
def wanted (scope : NameScope) (p : Name.Preprocessor) (item : Item) : Wanted where
  words := p.words item.name
  fallback :=
    if scope = .interface then (withoutInterfaceMark? item.name).map p.words else none

/-- The confidence that one name of the code gives. -/
def scoreName (scope : NameScope) (p : Name.Preprocessor) (w : Wanted) (name : CodeName) :
    Except TraceError Confidence :=
  let found := p.words name.name
  if Name.isContained w.words found then
    if scope = .interface ∧ name.kind = .interfaceType then Confidence.ofValue 1
    else Confidence.ofValue (Name.lengthRatio w.words found)
  else match w.fallback with
    | some words =>
      if Name.isContained words found then Confidence.ofValue (Name.lengthRatio words found)
      else .ok .unset
    | none => .ok .unset

/-- The confidence of a candidate: the best that a name of the unit gives. -/
def score (scope : NameScope) (p : Name.Preprocessor) (t : Candidate) :
    Except TraceError Confidence :=
  if scope.admits t then do
    let w := wanted scope p t.item
    return Confidence.bestOf (← t.unit.codeNames.mapM (scoreName scope p w))
  else .ok .unset

end NameMatch

/-- The heuristic that compares names within a scope. -/
def Heuristic.byName (scope : NameScope) (p : Name.Preprocessor) : Heuristic where
  id := s!"name-resemblance-{scope.name}-{p.method.name}"
  kind := .standalone
  score := fun t _ => NameMatch.score scope p t

end TraceRecovery
