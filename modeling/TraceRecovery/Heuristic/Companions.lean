import TraceRecovery.Heuristic.Basic

/-!
# Companion units

Some words mark a unit as a companion of another one: `OrderServiceTest` goes with `OrderService`.
Such common words are left out of names, except those that some item's name uses. A unit that then
has the name of the item scores 1. Any other unit takes over the best confidence of a unit in the
same package that is linked to the item and has the same name without common words.
-/

namespace TraceRecovery

namespace Companion

/-- The common words where none are named. -/
def defaultCommonWords : List String := ["Test", "Action", "Impl", "Factory", "Exception"]

/-- The words that are left out: the common ones in lower case, less those of item names. -/
def ignoredWords (commonWords : List String) (c : Context) : List String :=
  (commonWords.map Text.lower).filter fun w => !c.architectureWords.contains w

/-- A name without the words that are left out. -/
def reduced (ignored : List String) (name : String) : List String :=
  Name.wordsExcept ignored.contains name

/-- Whether two lists of names have a reduced name in common that is not empty. -/
def areSimilar (ignored : List String) (left right : List String) : Bool :=
  left.any fun l =>
    let ls := reduced ignored l
    !ls.isEmpty && right.any fun r => reduced ignored r == ls

/-- The names of a unit and of its types. -/
def namesOf (u : CodeUnit) : List String := u.codeNames.map CodeName.name

/-- The confidence of a candidate, given the words that are left out and the base. -/
def scoreFrom (ignored : List String) (base : Table) (t : Candidate) :
    Except TraceError Confidence :=
  if areSimilar ignored (namesOf t.unit) [t.item.name] then Confidence.ofValue 1
  else
    let siblings := (base.linkedUnits t.item.id).filter fun v =>
      t.unit.samePackage v && areSimilar ignored (namesOf t.unit) (namesOf v)
    .ok (Confidence.bestOf (siblings.map fun v => base.get ⟨t.item, v⟩))

/-- The confidence of a candidate. -/
def score (commonWords : List String) (t : Candidate) (c : Context) :
    Except TraceError Confidence := do
  let base ← c.base
  if t.item.hasSignatures || (base.get t).isDefined then return .unset
  scoreFrom (ignoredWords commonWords c) base t

end Companion

/-- The heuristic that extends a base to companions of linked units. -/
def Heuristic.byCompanions (commonWords : List String) : Heuristic where
  id := "sibling-resemblance"
  kind := .dependent
  score := Companion.score commonWords

end TraceRecovery
