import Mathlib.Data.List.Nodup
import TraceRecovery.Heuristic.Companions
import TraceRecovery.Heuristic.Inheritance
import TraceRecovery.Proofs.Fallible
import TraceRecovery.Proofs.Result.Filling

/-!
# What linked units contribute

The two heuristics that extend a base ask it for the units that are linked to an item. In a table
over a space these are the units of the space with a value (`Table.mem_linkedUnits_iff`), since the
ids of items are distinct. So all of them are units of the code, and neither heuristic ever fails
where its base is such a table (`Companion.score_eq_ok`, `Inheritance.score_eq_ok`).
-/

namespace TraceRecovery

theorem Architecture.eq_of_id_eq {a : Architecture} {i j : Item} (hi : i ∈ a.items)
    (hj : j ∈ a.items) (h : i.id = j.id) : i = j :=
  List.inj_on_of_nodup_map a.distinct hi hj h

theorem Code.eq_of_id_eq {k : Code} {u v : CodeUnit} (hu : u ∈ k.units) (hv : v ∈ k.units)
    (h : u.id = v.id) : u = v :=
  List.inj_on_of_nodup_map k.distinct hu hv h

theorem Code.unit_eq_ok {k : Code} {u : CodeUnit} (hu : u ∈ k.units) : k.unit u.id = .ok u := by
  have hfound : k.unit? u.id = some u := (find?_key_eq_some_iff k.distinct).mpr ⟨hu, rfl⟩
  rw [unit, hfound]

/-! ## Tables -/

namespace Table

variable {tb : Table} {s : CandidateSpace} {c : Candidate}

/-- Where no candidate is written twice, the entries are the candidates with their confidences. -/
theorem mem_entries_iff (hn : tb.written.Nodup) {e : Candidate × Confidence} :
    e ∈ tb.entries ↔ e.1 ∈ tb.written ∧ e.2 = tb.get e.1 := by
  have hget : ∀ {c : Candidate} {x : Confidence}, (c, x) ∈ tb.entries → tb.get c = x := by
    intro c x hm
    rw [get, lookup_eq_some_of_mem hn hm, Option.getD_some]
  constructor
  · intro he
    exact ⟨List.mem_map_of_mem he, (hget he).symm⟩
  · rintro ⟨hwritten, hvalue⟩
    obtain ⟨e', he', hfst⟩ := List.mem_map.mp hwritten
    have hsnd : e'.2 = e.2 := by rw [hvalue, ← hfst, hget he']
    rwa [Prod.ext hfst hsnd] at he'

/-- The units linked to the item of a candidate are those whose candidates with it have a value. -/
theorem mem_linkedUnits_iff (h : tb.written = s.candidates) (hc : c ∈ s.candidates)
    {v : CodeUnit} : v ∈ tb.linkedUnits c.item.id ↔
      ⟨c.item, v⟩ ∈ s.candidates ∧ (tb.get ⟨c.item, v⟩).isDefined = true := by
  have hn : tb.written.Nodup := h ▸ s.nodup_candidates
  have hitem := (CandidateSpace.mem_candidates.mp hc).1
  simp only [linkedUnits, List.mem_map, List.mem_filter, Bool.and_eq_true, beq_iff_eq,
    mem_entries_iff hn, h, CandidateSpace.mem_candidates]
  constructor
  · rintro ⟨⟨⟨i, u⟩, x⟩, ⟨⟨⟨hi, hu⟩, hx⟩, hid, hdefined⟩, rfl⟩
    obtain rfl : i = c.item := s.architecture.eq_of_id_eq hi hitem hid
    obtain rfl : x = tb.get ⟨c.item, u⟩ := hx
    exact ⟨⟨hi, hu⟩, hdefined⟩
  · rintro ⟨hmem, hdefined⟩
    exact ⟨⟨⟨c.item, v⟩, tb.get ⟨c.item, v⟩⟩, ⟨⟨hmem, rfl⟩, rfl, hdefined⟩, rfl⟩

end Table

/-! ## Heuristics -/

/-- The context of a node that reads a single table. -/
def Context.reading (s : CandidateSpace) (base : Table) : Context :=
  { Context.ofModels s.architecture s.code with dependencies := [base] }

variable {s : CandidateSpace} {base : Table} {c : Candidate}

namespace Companion

/-- The linked units in the same package whose names resemble those of a unit. -/
def siblings (ignored : List String) (base : Table) (c : Candidate) : List CodeUnit :=
  (base.linkedUnits c.item.id).filter fun v =>
    c.unit.samePackage v && areSimilar ignored (namesOf c.unit) (namesOf v)

/-- What a candidate gets that the base leaves open. -/
def extension (ignored : List String) (base : Table) (c : Candidate) : Confidence :=
  if c.item.hasSignatures then .unset
  else if areSimilar ignored (namesOf c.unit) [c.item.name] then .of 1 (by decide)
  else .bestOf ((siblings ignored base c).map fun v => base.get ⟨c.item, v⟩)

theorem score_eq_ok (commonWords : List String) (hbase : base.get c = .unset) :
    score commonWords c (.reading s base) =
      .ok (extension (ignoredWords commonWords (.reading s base)) base c) := by
  have hundefined : (base.get c).isDefined = false := by rw [hbase]; rfl
  show (if c.item.hasSignatures || (base.get c).isDefined then .ok .unset
    else scoreFrom _ base c) = _
  rw [hundefined, Bool.or_false, extension]
  split
  · rfl
  · rw [scoreFrom]
    split <;> rfl

end Companion

namespace Inheritance

/-- The linked units that a unit inherits from. -/
def ancestors (base : Table) (c : Candidate) : List CodeUnit :=
  (base.linkedUnits c.item.id).filter c.unit.inheritsFrom

/-- What a candidate gets that the base leaves open. -/
def extension (base : Table) (c : Candidate) : Confidence :=
  .bestOf ((ancestors base c).map fun v => base.get ⟨c.item, v⟩)

theorem inherited_eq_ok {context : Context} {vs : List CodeUnit}
    (h : ∀ v ∈ vs, v ∈ context.code.units) :
    inherited context base c vs =
      .ok ((vs.filter c.unit.inheritsFrom).map fun v => base.get ⟨c.item, v⟩) := by
  induction vs with
  | nil => rfl
  | cons v vs ih =>
    obtain ⟨hv, hvs⟩ := List.forall_mem_cons.mp h
    rw [inherited, context.code.unit_eq_ok hv, ih hvs, List.filter_cons]
    show Except.ok _ = Except.ok _
    split <;> rfl

theorem score_eq_ok (hwritten : base.written = s.candidates) (hc : c ∈ s.candidates)
    (hbase : base.get c = .unset) :
    score c (.reading s base) = .ok (extension base c) := by
  have hundefined : (base.get c).isDefined = false := by rw [hbase]; rfl
  have hunits : ∀ v ∈ base.linkedUnits c.item.id, v ∈ (Context.reading s base).code.units :=
    fun v hv => (CandidateSpace.mem_candidates.mp
      ((Table.mem_linkedUnits_iff hwritten hc).mp hv).1).2
  show (if (base.get c).isDefined then .ok Confidence.unset
    else inherited (.reading s base) base c (base.linkedUnits c.item.id) >>= _) = _
  rw [hundefined, inherited_eq_ok hunits]
  rfl

end Inheritance

end TraceRecovery
