import TraceRecovery.Model.Architecture
import TraceRecovery.Model.Unit
import TraceRecovery.SortedSet

/-!
# The code of a run

A list of units without repeated ids, all of whose packages are declared. `Code.ofUnits` goes
through the units in order and reports the first one that repeats an id or names a package that is
not declared.
-/

namespace TraceRecovery

/-- The units of a code base, no two with the same id, and its packages. -/
structure Code where
  units : List CodeUnit
  packages : List Package
  distinct : (units.map CodeUnit.id).Nodup
  declared : ∀ u ∈ units, ∀ p ∈ u.package, p ∈ packages.map Package.id

namespace Code

/-- The code without units. -/
def empty : Code := ⟨[], [], List.nodup_nil, by simp⟩

/-- What is wrong with a unit, given the ids of the units before it and those of the packages. -/
def fault? (seen packages : List String) (u : CodeUnit) : Option TraceError :=
  if u.id ∈ seen then some (.invalidArgument (.duplicateUnit u.id))
  else match u.package with
    | none => none
    | some p => if p ∈ packages then none else some (.unresolved (.package p u.id))

/-- The first fault of a list of units. -/
def firstFault? (packages : List String) : List String → List CodeUnit → Option TraceError
  | _, [] => none
  | seen, u :: us =>
    match fault? seen packages u with
    | some e => some e
    | none => firstFault? packages (u.id :: seen) us

theorem fault?_eq_none_iff {seen packages : List String} {u : CodeUnit} :
    fault? seen packages u = none ↔ u.id ∉ seen ∧ ∀ p ∈ u.package, p ∈ packages := by
  unfold fault?
  split
  · simp_all
  · split
    · simp_all
    · split <;> simp_all

/-- There is no fault exactly if the ids are distinct, from each other and from those seen, and
every package is declared. -/
theorem firstFault?_eq_none_iff {packages seen : List String} {us : List CodeUnit} :
    firstFault? packages seen us = none ↔
      (us.map CodeUnit.id).Nodup ∧ (∀ u ∈ us, u.id ∉ seen) ∧
        ∀ u ∈ us, ∀ p ∈ u.package, p ∈ packages := by
  induction us generalizing seen with
  | nil => simp [firstFault?]
  | cons u us ih =>
    unfold firstFault?
    cases h : fault? seen packages u with
    | some e =>
      have : ¬ (u.id ∉ seen ∧ ∀ p ∈ u.package, p ∈ packages) := by
        rw [← fault?_eq_none_iff, h]
        simp
      simp only [reduceCtorEq, false_iff]
      rintro ⟨_, h2, h3⟩
      exact this ⟨h2 u (by simp), h3 u (by simp)⟩
    | none =>
      obtain ⟨h1, h2⟩ := fault?_eq_none_iff.mp h
      simp only [ih, List.map_cons, List.nodup_cons, List.mem_map, List.mem_cons, not_exists,
        not_and, not_or, forall_eq_or_imp]
      constructor
      · rintro ⟨a, b, c⟩
        exact ⟨⟨fun v hv e => (b v hv).1 e, a⟩, ⟨h1, fun v hv => (b v hv).2⟩, h2, c⟩
      · rintro ⟨⟨a, b⟩, ⟨_, c⟩, _, d⟩
        exact ⟨b, fun v hv => ⟨fun e => a v hv e, c v hv⟩, d⟩

/-- The code with the given units and packages. -/
def ofUnits (units : List CodeUnit) (packages : List Package) : Except TraceError Code :=
  match h : firstFault? (packages.map Package.id) [] units with
  | some e => .error e
  | none =>
    have faultless := firstFault?_eq_none_iff.mp h
    .ok ⟨units, packages, faultless.1, faultless.2.2⟩

/-- The unit with an id, if there is one. -/
def unit? (c : Code) (id : String) : Option CodeUnit := c.units.find? fun u => u.id == id

/-- The unit with an id. -/
def unit (c : Code) (id : String) : Except TraceError CodeUnit :=
  match c.unit? id with
  | some u => .ok u
  | none => .error (.unresolved (.unit id))

def size (c : Code) : Nat := c.units.length

/-- The names of all declared packages. -/
def packageNames (c : Code) : SortedSet String := .ofList (c.packages.map Package.name)

end Code

end TraceRecovery
