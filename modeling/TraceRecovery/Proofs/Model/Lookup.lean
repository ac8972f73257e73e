import TraceRecovery.Model.Index
import TraceRecovery.Proofs.Model.RoundTrip
import TraceRecovery.Proofs.Result.Filling

/-!
# Models of consistent elements

A model is built from exactly the lists of elements that are consistent: no id comes twice, and no
element is at fault by itself. From any other list it is the first offending element that decides
the error, and a repeated id is reported before anything else about that element. A model holds the
elements in their order and finds each by its id (`ElementSort.Builds`).

For models with an index this follows from one step (`Indexed.enter_eq_error_iff`), since the index
knows exactly the ids of the elements that have been taken in. The models without index refuse the
same element with the same error, as the ids that they have seen are those in the index
(`Architecture.error?_addAll`, `Code.error?_addAll`).
-/

namespace TraceRecovery

namespace ElementSort

variable {α μ : Type} {σ : ElementSort α} {fault : α → TraceError → Prop} {xs before : List α}
  {x : α} {e : TraceError}

/-! ## What models promise -/

/-- No two elements have the same id, and none is at fault by itself. -/
structure Consistent (σ : ElementSort α) (fault : α → TraceError → Prop) (xs : List α) :
    Prop where
  distinct : (xs.map σ.id).Nodup
  faultless : ∀ x ∈ xs, ∀ e, ¬ fault x e

/-- The error that an element behind others gives rise to. A repeated id comes first. -/
inductive Offends (σ : ElementSort α) (fault : α → TraceError → Prop) (before : List α) (x : α) :
    TraceError → Prop where
  | repeated (h : σ.id x ∈ before.map σ.id) :
      Offends σ fault before x (.invalidArgument (σ.duplicate (σ.id x)))
  | atFault {e : TraceError} (hnew : σ.id x ∉ before.map σ.id) (h : fault x e) :
      Offends σ fault before x e

/-- What is built from a list of elements, with what it then lists and finds. -/
structure Builds (σ : ElementSort α) (fault : α → TraceError → Prop) (xs : List α)
    (built : Except TraceError μ) (elements : μ → List α)
    (find : μ → String → Except TraceError α) : Prop where
  /-- Consistent elements are accepted, and no others. -/
  accepted_iff : (∃ m, built = .ok m) ↔ σ.Consistent fault xs
  /-- It is the first offending element that is reported. -/
  refused_iff : ∀ e, built = .error e ↔ ∃ before x after, xs = before ++ x :: after ∧
    σ.Consistent fault before ∧ σ.Offends fault before x e
  elements_eq : ∀ m, built = .ok m → elements m = xs
  found_iff : ∀ m, built = .ok m → ∀ id x, find m id = .ok x ↔ x ∈ xs ∧ σ.id x = id
  unknown_iff : ∀ m, built = .ok m → ∀ id e,
    find m id = .error e ↔ e = .unresolved (σ.unknown id) ∧ ∀ x ∈ xs, σ.id x ≠ id

theorem Offends.not_consistent {after : List α} (h : σ.Offends fault before x e) :
    ¬ σ.Consistent fault (before ++ x :: after) := by
  intro hc
  cases h with
  | repeated h =>
    have hnodup := hc.distinct
    rw [List.map_append, List.map_cons] at hnodup
    exact List.disjoint_of_nodup_append hnodup h List.mem_cons_self
  | atFault _ h => exact hc.faultless x (by simp) e h

end ElementSort

/-! ## Models with an index -/

namespace Indexed

variable {α : Type} {σ : ElementSort α} {check : α → Except TraceError Unit}
  {fault : α → TraceError → Prop} {ix ix' : Indexed σ} {xs : List α} {x : α} {e : TraceError}

/-- No two elements have the same id, since the index has one place for it. -/
theorem nodup_ids (ix : Indexed σ) : (ix.elements.toList.map σ.id).Nodup := by
  have hplace : ∀ (n : Nat) (x : α), ix.elements.toList[n]? = some x →
      ix.places[σ.id x]? = some n := by
    intro n x hx
    exact (ix.places_iff _ n).mpr ⟨x, by simpa using hx, rfl⟩
  rw [List.Nodup, List.pairwise_map, List.pairwise_iff_getElem]
  intro i j hi hj hij hid
  have hi := hplace i _ (List.getElem?_eq_getElem hi)
  have hj := hplace j _ (List.getElem?_eq_getElem hj)
  rw [hid, hj] at hi
  exact absurd (Option.some.inj hi) (Nat.ne_of_gt hij)

theorem mem_places_iff_mem_map {id : String} :
    id ∈ ix.places ↔ id ∈ ix.elements.toList.map σ.id := by
  simp only [mem_places_iff, List.mem_map, Array.mem_toList_iff]

@[simp]
theorem toList_elements_add {hnew : σ.id x ∉ ix.places} :
    (ix.add x hnew).elements.toList = ix.elements.toList ++ [x] := by
  simp [add]

theorem mem_places_add {hnew : σ.id x ∉ ix.places} {id : String} :
    id ∈ (ix.add x hnew).places ↔ id = σ.id x ∨ id ∈ ix.places := by
  rw [add, Std.HashMap.mem_insert, beq_iff_eq, eq_comm]

theorem enter_of_mem (h : σ.id x ∈ ix.places) :
    enter check ix x = .error (.invalidArgument (σ.duplicate (σ.id x))) :=
  dif_pos h

theorem enter_of_not_mem (h : σ.id x ∉ ix.places) :
    enter check ix x = check x >>= fun _ => .ok (ix.add x h) :=
  dif_neg h

theorem enter_eq_ok_iff : enter check ix x = .ok ix' ↔
    ∃ hnew : σ.id x ∉ ix.places, check x = .ok () ∧ ix' = ix.add x hnew := by
  by_cases hmem : σ.id x ∈ ix.places
  · rw [enter_of_mem hmem]
    simp [hmem]
  · rw [enter_of_not_mem hmem, Fallible.bind_eq_ok_iff]
    constructor
    · rintro ⟨_, hcheck, h⟩
      exact ⟨hmem, hcheck, (Except.ok.inj h).symm⟩
    · rintro ⟨_, hcheck, rfl⟩
      exact ⟨(), hcheck, rfl⟩

/-- An element is refused exactly if it offends behind those that are there. -/
theorem enter_eq_error_iff (hcheck : ∀ x e, check x = .error e ↔ fault x e) :
    enter check ix x = .error e ↔ σ.Offends fault ix.elements.toList x e := by
  by_cases hmem : σ.id x ∈ ix.places
  · rw [enter_of_mem hmem]
    rw [mem_places_iff_mem_map] at hmem
    constructor
    · intro h
      obtain rfl := Except.error.inj h
      exact .repeated hmem
    · rintro (_ | ⟨hnew, -⟩)
      · rfl
      · exact absurd hmem hnew
  · rw [enter_of_not_mem hmem, Fallible.bind_eq_error_iff]
    rw [mem_places_iff_mem_map] at hmem
    constructor
    · rintro (h | ⟨_, -, h⟩)
      · exact .atFault hmem ((hcheck x e).mp h)
      · cases h
    · rintro (hrepeated | ⟨-, h⟩)
      · exact absurd hrepeated hmem
      · exact .inl ((hcheck x e).mpr h)

theorem addAll_cons : ix.addAll check (x :: xs) = enter check ix x >>= fun ix => ix.addAll check xs :=
  List.foldlM_cons

/-- Elements that are taken in stand behind those that were there. -/
theorem toList_elements_of_addAll (h : ix.addAll check xs = .ok ix') :
    ix'.elements.toList = ix.elements.toList ++ xs := by
  induction xs generalizing ix with
  | nil =>
    obtain rfl := Except.ok.inj h
    simp
  | cons x xs ih =>
    rw [addAll_cons] at h
    obtain ⟨next, hx, h⟩ := Fallible.bind_eq_ok_iff.mp h
    obtain ⟨_, -, rfl⟩ := enter_eq_ok_iff.mp hx
    rw [ih h, toList_elements_add, List.append_assoc, List.singleton_append]

theorem check_of_addAll (h : ix.addAll check xs = .ok ix') : ∀ x ∈ xs, check x = .ok () := by
  induction xs generalizing ix with
  | nil => simp
  | cons x xs ih =>
    rw [addAll_cons] at h
    obtain ⟨next, hx, h⟩ := Fallible.bind_eq_ok_iff.mp h
    obtain ⟨_, hcheck, -⟩ := enter_eq_ok_iff.mp hx
    exact List.forall_mem_cons.mpr ⟨hcheck, ih h⟩

theorem get_eq_ok_iff {id : String} :
    ix.get id = .ok x ↔ x ∈ ix.elements.toList ∧ σ.id x = id := by
  unfold get
  split
  · rename_i place hplace
    obtain ⟨y, hy, hid⟩ := (ix.places_iff id place).mp hplace
    obtain ⟨hlt, hget⟩ := Array.getElem?_eq_some_iff.mp hy
    rw [Except.ok.injEq, hget]
    constructor
    · rintro rfl
      exact ⟨Array.mem_toList_iff.mpr (Array.mem_of_getElem? hy), hid⟩
    · rintro ⟨hx, hx'⟩
      exact List.inj_on_of_nodup_map ix.nodup_ids
        (Array.mem_toList_iff.mpr (Array.mem_of_getElem? hy)) hx (hid.trans hx'.symm)
  · rename_i hnone
    simp only [reduceCtorEq, false_iff, not_and]
    intro hx hid
    have hmem : id ∈ ix.places := mem_places_iff.mpr ⟨x, Array.mem_toList_iff.mp hx, hid⟩
    simp [Std.HashMap.mem_iff_isSome_getElem?, hnone] at hmem

theorem get_eq_error_iff {id : String} : ix.get id = .error e ↔
    e = .unresolved (σ.unknown id) ∧ ∀ x ∈ ix.elements.toList, σ.id x ≠ id := by
  cases h : ix.get id with
  | ok x =>
    obtain ⟨hx, hid⟩ := get_eq_ok_iff.mp h
    simp only [reduceCtorEq, false_iff, not_and]
    exact fun _ hne => hne x hx hid
  | error e' =>
    have hnone : ∀ x ∈ ix.elements.toList, σ.id x ≠ id := by
      intro x hx hid
      rw [get_eq_ok_iff.mpr ⟨hx, hid⟩] at h
      cases h
    have he : e' = .unresolved (σ.unknown id) := by
      unfold get at h
      split at h
      · cases h
      · exact (Except.error.inj h).symm
    simp only [Except.error.injEq, he]
    exact ⟨fun h => ⟨h.symm, hnone⟩, fun h => h.1.symm⟩

/-- What a model with an index promises, whatever its elements are and however they are checked. -/
theorem builds (hcheck : ∀ x e, check x = .error e ↔ fault x e) (xs : List α) :
    σ.Builds fault xs ((empty : Indexed σ).addAll check xs) (fun ix => ix.elements.toList) get := by
  have helements : ∀ {xs ix}, (empty : Indexed σ).addAll check xs = .ok ix →
      ix.elements.toList = xs := fun h => toList_elements_of_addAll h
  have hconsistent : ∀ {xs ix}, (empty : Indexed σ).addAll check xs = .ok ix →
      σ.Consistent fault xs := by
    refine fun {xs ix} h => ⟨helements h ▸ ix.nodup_ids, fun x hx e he => ?_⟩
    rw [← hcheck, check_of_addAll h x hx] at he
    cases he
  have hoffender : ∀ {xs e}, (empty : Indexed σ).addAll check xs = .error e →
      ∃ before x after, xs = before ++ x :: after ∧ σ.Consistent fault before ∧
        σ.Offends fault before x e := by
    intro xs e h
    obtain ⟨before, x, after, rfl, ix, hbefore, hx⟩ := Fallible.foldlM_eq_error_iff.mp h
    rw [enter_eq_error_iff hcheck, helements hbefore] at hx
    exact ⟨before, x, after, rfl, hconsistent hbefore, hx⟩
  have haccepted : ∀ {xs}, σ.Consistent fault xs →
      ∃ ix, (empty : Indexed σ).addAll check xs = .ok ix := by
    intro xs h
    cases hxs : (empty : Indexed σ).addAll check xs with
    | ok ix => exact ⟨ix, rfl⟩
    | error e =>
      obtain ⟨before, x, after, rfl, -, hx⟩ := hoffender hxs
      exact absurd h hx.not_consistent
  refine {
    accepted_iff := ⟨fun ⟨ix, h⟩ => hconsistent h, haccepted⟩
    refused_iff := fun e => ⟨hoffender, ?_⟩
    elements_eq := fun ix h => helements h
    found_iff := fun ix h id x => helements h ▸ get_eq_ok_iff
    unknown_iff := fun ix h id e => helements h ▸ get_eq_error_iff }
  rintro ⟨before, x, after, rfl, hbefore, hx⟩
  obtain ⟨ix, hix⟩ := haccepted hbefore
  rw [← helements hix, ← enter_eq_error_iff hcheck] at hx
  exact Fallible.foldlM_eq_error_iff.mpr ⟨before, x, after, rfl, ix, hix, hx⟩

end Indexed

/-! ## Models without index -/

namespace ElementSort

variable {α μ μ' : Type} {σ : ElementSort α} {fault : α → TraceError → Prop} {xs : List α}

/-- A model that fails where another one does, and lists its elements and goes through them to find
one, promises the same. -/
theorem Builds.of_error?_eq {built : Except TraceError μ} {elements : μ → List α}
    {find : μ → String → Except TraceError α} {built' : Except TraceError μ'}
    {elements' : μ' → List α} {find' : μ' → String → Except TraceError α}
    (h : σ.Builds fault xs built elements find)
    (herror : Fallible.error? built' = Fallible.error? built)
    (helements : ∀ m, built' = .ok m → elements' m = xs)
    (hfound : ∀ m id x, ((elements' m).find? fun x => σ.id x == id) = some x → find' m id = .ok x)
    (hunknown : ∀ m id, ((elements' m).find? fun x => σ.id x == id) = none →
      find' m id = .error (.unresolved (σ.unknown id))) :
    σ.Builds fault xs built' elements' find' := by
  have haccepted : (∃ m, built' = .ok m) ↔ σ.Consistent fault xs := by
    rw [← h.accepted_iff, ← Fallible.error?_eq_none_iff, herror, Fallible.error?_eq_none_iff]
  have hlookup : ∀ m, built' = .ok m → ∀ id x,
      ((elements' m).find? fun x => σ.id x == id) = some x ↔ x ∈ xs ∧ σ.id x = id := by
    intro m hm id x
    rw [helements m hm]
    exact find?_key_eq_some_iff (haccepted.mp ⟨m, hm⟩).distinct
  refine {
    accepted_iff := haccepted
    refused_iff := fun e => ?_
    elements_eq := helements
    found_iff := fun m hm id x => ?_
    unknown_iff := fun m hm id e => ?_ }
  · rw [← h.refused_iff, ← Fallible.error?_eq_some_iff, herror, Fallible.error?_eq_some_iff]
  · rw [← hlookup m hm]
    cases hx : (elements' m).find? fun x => σ.id x == id with
    | some y => rw [hfound m id y hx, Except.ok.injEq, Option.some.injEq]
    | none => simp [hunknown m id hx]
  · cases hx : (elements' m).find? fun x => σ.id x == id with
    | some y =>
      obtain ⟨hy, hid⟩ := (hlookup m hm id y).mp hx
      rw [hfound m id y hx]
      simp only [reduceCtorEq, false_iff, not_and]
      exact fun _ hne => hne y hy hid
    | none =>
      have hnone : ∀ y ∈ xs, σ.id y ≠ id := by
        intro y hy hid
        rw [(hlookup m hm id y).mpr ⟨hy, hid⟩] at hx
        cases hx
      rw [hunknown m id hx, Except.error.injEq]
      exact ⟨fun h => ⟨h.symm, hnone⟩, fun h => h.1.symm⟩

end ElementSort

namespace Architecture

theorem builds_indexed (items : List Item) :
    Item.sort.Builds (fun _ _ => False) items (indexed items) (fun ix => ix.elements.toList)
      Indexed.get :=
  Indexed.builds (by simp) items

/-- The first item whose id has been seen is the one that the index refuses. -/
theorem error?_addAll {ix : Indexed Item.sort} {items : List Item} {seen : List String}
    (hseen : ∀ id, id ∈ ix.places ↔ id ∈ seen) :
    Fallible.error? (ix.addAll (fun _ => .ok ()) items) =
      (firstRepeated Item.id seen items).map fun i => .invalidArgument (.duplicateItem i.id) := by
  induction items generalizing ix seen with
  | nil => rfl
  | cons i items ih =>
    rw [Indexed.addAll_cons, firstRepeated]
    by_cases hi : i.id ∈ seen
    · rw [if_pos hi, Indexed.enter_of_mem ((hseen i.id).mpr hi)]
      rfl
    · rw [if_neg hi, Indexed.enter_of_not_mem (mt (hseen i.id).mp hi)]
      refine ih fun id => ?_
      rw [Indexed.mem_places_add, hseen, List.mem_cons]
      rfl

theorem error?_ofItems (items : List Item) :
    Fallible.error? (ofItems items) = Fallible.error? (indexed items) := by
  have hrepeated : Fallible.error? (indexed items) =
      (firstRepeated Item.id [] items).map fun i => .invalidArgument (.duplicateItem i.id) :=
    error?_addAll fun id => by simp [Indexed.empty]
  by_cases hn : (items.map Item.id).Nodup
  · rw [ofItems, dif_pos hn]
    exact (Fallible.error?_eq_none_iff.mpr
      ((builds_indexed items).accepted_iff.mpr ⟨hn, by simp⟩)).symm
  · rw [ofItems, dif_neg hn]
    cases hfirst : firstRepeated Item.id [] items with
    | some i => rw [hrepeated, hfirst]; rfl
    | none =>
      rw [hfirst] at hrepeated
      exact absurd ((builds_indexed items).accepted_iff.mp
        (Fallible.error?_eq_none_iff.mp hrepeated)).distinct hn

theorem builds_ofItems (items : List Item) :
    Item.sort.Builds (fun _ _ => False) items (ofItems items) Architecture.items item := by
  refine (builds_indexed items).of_error?_eq (error?_ofItems items) (fun a ha => ?_)
    (fun a id i h => ?_) fun a id h => ?_
  · unfold ofItems at ha
    split at ha
    · cases ha
      rfl
    · cases ha
  · have hi : a.item? id = some i := h
    rw [item, hi]
  · have hnone : a.item? id = none := h
    rw [item, hnone]
    rfl

end Architecture

namespace Code

variable {units : List CodeUnit} {declared seen : List String} {u : CodeUnit} {e : TraceError}

/-- The error of a unit that names a package that is not declared. -/
def Undeclared (declared : List String) (u : CodeUnit) (e : TraceError) : Prop :=
  ∃ p, u.package = some p ∧ p ∉ declared ∧ e = .unresolved (.package p u.id)

theorem checkPackage_eq : checkPackage (.ofList declared) u =
    match u.package with
    | none => .ok ()
    | some p => if p ∈ declared then .ok () else .error (.unresolved (.package p u.id)) := by
  unfold checkPackage
  cases u.package with
  | none => rfl
  | some p => simp only [SortedSet.contains_iff, SortedSet.mem_ofList]

theorem checkPackage_eq_error_iff :
    checkPackage (.ofList declared) u = .error e ↔ Undeclared declared u e := by
  rw [checkPackage_eq, Undeclared]
  cases u.package with
  | none => simp
  | some p => by_cases hp : p ∈ declared <;> simp [hp, eq_comm]

theorem error?_checkPackage (h : u.id ∉ seen) :
    Fallible.error? (checkPackage (.ofList declared) u) = fault? seen declared u := by
  rw [checkPackage_eq, fault?, if_neg h]
  cases u.package with
  | none => rfl
  | some p =>
    show Fallible.error? (if p ∈ declared then _ else _) = if p ∈ declared then _ else _
    split <;> rfl

theorem builds_indexed (units : List CodeUnit) (packages : List Package) :
    CodeUnit.sort.Builds (Undeclared (packages.map Package.id)) units (indexed units packages)
      (fun ix => ix.elements.toList) Indexed.get :=
  Indexed.builds (fun _ _ => checkPackage_eq_error_iff) units

/-- The first unit at fault, given the ids that have been seen, is the one that the index refuses. -/
theorem error?_addAll {ix : Indexed CodeUnit.sort} (hseen : ∀ id, id ∈ ix.places ↔ id ∈ seen) :
    Fallible.error? (ix.addAll (checkPackage (.ofList declared)) units) =
      firstFault? declared seen units := by
  induction units generalizing ix seen with
  | nil => rfl
  | cons u units ih =>
    rw [Indexed.addAll_cons, firstFault?]
    by_cases hu : u.id ∈ seen
    · rw [Indexed.enter_of_mem ((hseen u.id).mpr hu), fault?, if_pos hu]
      rfl
    · rw [Indexed.enter_of_not_mem (mt (hseen u.id).mp hu), ← error?_checkPackage hu]
      cases checkPackage (.ofList declared) u with
      | error e => rfl
      | ok _ =>
        refine ih fun id => ?_
        rw [Indexed.mem_places_add, hseen, List.mem_cons]
        rfl

theorem error?_ofUnits (units : List CodeUnit) (packages : List Package) :
    Fallible.error? (ofUnits units packages) = Fallible.error? (indexed units packages) := by
  have hfault : Fallible.error? (indexed units packages) =
      firstFault? (packages.map Package.id) [] units :=
    error?_addAll fun id => by simp [Indexed.empty]
  rw [hfault]
  unfold ofUnits
  split
  · rename_i e h
    exact h.symm
  · rename_i h
    exact h.symm

theorem builds_ofUnits (units : List CodeUnit) (packages : List Package) :
    CodeUnit.sort.Builds (Undeclared (packages.map Package.id)) units (ofUnits units packages)
      Code.units unit := by
  refine (builds_indexed units packages).of_error?_eq (error?_ofUnits units packages)
    (fun c hc => (parts_of_ofUnits_eq_ok hc).1) (fun c id u h => ?_) fun c id h => ?_
  · have hu : c.unit? id = some u := h
    rw [unit, hu]
  · have hnone : c.unit? id = none := h
    rw [unit, hnone]
    rfl

end Code

/-- An architecture is built from exactly the items with different ids, and a code base from exactly
the units with different ids whose packages are declared, with or without an index. Everything else
is refused with the error of the first offending element, where a repeated id comes before a package
that is not declared. What is built lists the elements in their order, and finds by its id the one
element that has it or else says that there is none. -/
theorem models_of_consistent_elements :
    (∀ items : List Item,
      ((∃ a, Architecture.ofItems items = .ok a) ↔ (items.map Item.id).Nodup) ∧
      Item.sort.Builds (fun _ _ => False) items (Architecture.ofItems items)
        Architecture.items Architecture.item ∧
      Item.sort.Builds (fun _ _ => False) items (Architecture.indexed items)
        (fun ix => ix.elements.toList) Indexed.get) ∧
    ∀ (units : List CodeUnit) (packages : List Package),
      ((∃ c, Code.ofUnits units packages = .ok c) ↔ (units.map CodeUnit.id).Nodup ∧
        ∀ u ∈ units, ∀ p ∈ u.package, p ∈ packages.map Package.id) ∧
      CodeUnit.sort.Builds (Code.Undeclared (packages.map Package.id)) units
        (Code.ofUnits units packages) Code.units Code.unit ∧
      CodeUnit.sort.Builds (Code.Undeclared (packages.map Package.id)) units
        (Code.indexed units packages) (fun ix => ix.elements.toList) Indexed.get := by
  refine ⟨fun items => ⟨?_, Architecture.builds_ofItems items, Architecture.builds_indexed items⟩,
    fun units packages =>
      ⟨?_, Code.builds_ofUnits units packages, Code.builds_indexed units packages⟩⟩
  · rw [(Architecture.builds_ofItems items).accepted_iff]
    exact ⟨fun h => h.distinct, fun h => ⟨h, fun _ _ _ => id⟩⟩
  · rw [(Code.builds_ofUnits units packages).accepted_iff]
    constructor
    · refine fun h => ⟨h.distinct, fun u hu p hp => ?_⟩
      by_contra hnot
      exact h.faultless u hu _ ⟨p, hp, hnot, rfl⟩
    · rintro ⟨hdistinct, hdeclared⟩
      refine ⟨hdistinct, ?_⟩
      rintro u hu e ⟨p, hp, hnot, -⟩
      exact hnot (hdeclared u hu p hp)

end TraceRecovery
