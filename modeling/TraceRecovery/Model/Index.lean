import Std.Data.HashMap
import TraceRecovery.Model.Code

/-!
# Models with an index

The elements of a model in their order, with an index of the places of their ids, through which they
are looked up. The index grows in the same pass in which the elements are checked: an element whose
id is in the index already is refused, and then one that a check of its own refuses. That the index
and the elements stay in step is part of the type (`Indexed.places_iff`), so a place that is found
always is one of an element.
-/

namespace TraceRecovery

/-- What sets the elements of one model apart from those of the other: their ids, and what is said
of an id that comes twice and of an id that no element has. -/
structure ElementSort (α : Type) where
  id : α → String
  duplicate : String → InvalidArgument
  unknown : String → Reference

/-- The items of an architecture. -/
def Item.sort : ElementSort Item := ⟨Item.id, .duplicateItem, .item⟩

/-- The units of a code base. -/
def CodeUnit.sort : ElementSort CodeUnit := ⟨CodeUnit.id, .duplicateUnit, .unit⟩

/-- Elements in order with the places of their ids. -/
structure Indexed {α : Type} (σ : ElementSort α) where
  elements : Array α
  places : Std.HashMap String Nat
  places_iff : ∀ id place,
    places[id]? = some place ↔ ∃ x, elements[place]? = some x ∧ σ.id x = id

namespace Indexed

variable {α : Type} {σ : ElementSort α}

/-- No elements. -/
def empty : Indexed σ := ⟨#[], ∅, by simp⟩

/-- The ids in the index are those of the elements. -/
theorem mem_places_iff {ix : Indexed σ} {id : String} :
    id ∈ ix.places ↔ ∃ x ∈ ix.elements, σ.id x = id := by
  rw [Std.HashMap.mem_iff_isSome_getElem?, Option.isSome_iff_exists]
  simp only [ix.places_iff, Array.mem_iff_getElem?]
  constructor
  · rintro ⟨place, x, hx, hid⟩
    exact ⟨x, ⟨place, hx⟩, hid⟩
  · rintro ⟨x, ⟨place, hx⟩, hid⟩
    exact ⟨place, x, hx, hid⟩

/-- The elements with one more behind them, whose id is new. -/
def add (ix : Indexed σ) (x : α) (hnew : σ.id x ∉ ix.places) : Indexed σ where
  elements := ix.elements.push x
  places := ix.places.insert (σ.id x) ix.elements.size
  places_iff id place := by
    rw [Std.HashMap.getElem?_insert, Array.getElem?_push]
    by_cases hid : σ.id x = id
    · subst hid
      by_cases hplace : place = ix.elements.size
      · simp [hplace]
      · have hold : ∀ y, ix.elements[place]? = some y → σ.id y ≠ σ.id x := fun y hy hxy =>
          hnew (mem_places_iff.mpr ⟨y, Array.mem_of_getElem? hy, hxy⟩)
        simpa [hplace, Ne.symm hplace] using hold
    · by_cases hplace : place = ix.elements.size
      · simp [hplace, hid, ix.places_iff]
      · simp [hplace, hid, ix.places_iff]

/-- Adds an element, unless its id is there already or a check refuses it. -/
def enter (check : α → Except TraceError Unit) (ix : Indexed σ) (x : α) :
    Except TraceError (Indexed σ) :=
  if h : σ.id x ∈ ix.places then .error (.invalidArgument (σ.duplicate (σ.id x)))
  else do
    check x
    return ix.add x h

/-- Adds elements in turn, up to the first that is refused. -/
def addAll (check : α → Except TraceError Unit) (ix : Indexed σ) (xs : List α) :
    Except TraceError (Indexed σ) :=
  xs.foldlM (enter check) ix

theorem lt_size {ix : Indexed σ} {id : String} {place : Nat} (h : ix.places[id]? = some place) :
    place < ix.elements.size := by
  obtain ⟨x, hx, -⟩ := (ix.places_iff id place).mp h
  exact (Array.getElem?_eq_some_iff.mp hx).1

/-- The element with an id. -/
def get (ix : Indexed σ) (id : String) : Except TraceError α :=
  match h : ix.places[id]? with
  | some place =>
    have := lt_size h
    .ok ix.elements[place]
  | none => .error (.unresolved (σ.unknown id))

end Indexed

/-- The items of an architecture with an index. -/
def Architecture.indexed (items : List Item) : Except TraceError (Indexed Item.sort) :=
  Indexed.empty.addAll (fun _ => .ok ()) items

namespace Code

/-- Refuses a unit whose package is not declared. -/
def checkPackage (declared : SortedSet String) (u : CodeUnit) : Except TraceError Unit :=
  match u.package with
  | none => .ok ()
  | some p => if declared.contains p then .ok () else .error (.unresolved (.package p u.id))

/-- The units of a code base with an index. -/
def indexed (units : List CodeUnit) (packages : List Package) :
    Except TraceError (Indexed CodeUnit.sort) :=
  Indexed.empty.addAll (checkPackage (.ofList (packages.map Package.id))) units

end Code

end TraceRecovery
