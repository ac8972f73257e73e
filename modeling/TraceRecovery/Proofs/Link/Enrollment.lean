import Mathlib.Data.String.Basic
import Mathlib.Logic.Relation
import Mathlib.Order.Bounds.Basic
import TraceRecovery.Proofs.Link.Coverage

/-!
# Enrolling gold standards

`StandsFor` says what an entry of a gold standard stands for, case by case: the id of a unit for
itself, a directory for the units below it, anything else for itself. `expand` lists just that
(`mem_expand_iff`), so an enrollment has the pairs that its gold standard means
(`enroll_eq_ok_iff`). It fails only for an item that the architecture does not have, and then names
the least of these (`enroll_eq_error_iff`).

Two gold standards that mean the same pairs are therefore enrolled alike (`enroll_congr`). This
applies to a gold standard and its own enrollment, as what an entry stands for always stands for
itself (`StandsFor.stable`), and to entries that spell the same directories with other slashes
(`directories_eq_of_eqvGen`).
-/

namespace TraceRecovery

/-! ## Least elements -/

/-- No element with a property precedes the first one that is found. -/
theorem SortedSet.compare_ne_gt_of_find? {α : Type} [Ord α] [Std.TransOrd α] [Std.LawfulEqOrd α]
    {s : SortedSet α} {p : α → Bool} {a b : α} (h : s.elements.find? p = some a) (hb : b ∈ s)
    (hp : p b = true) : compare a b ≠ .gt := by
  obtain ⟨-, before, after, hs, hbefore⟩ := List.find?_eq_some_iff_append.mp h
  have hascending := s.ascending
  rw [mem_def, hs] at hb
  rw [hs] at hascending
  rcases List.mem_append.mp hb with hb | hb
  · have := hbefore b hb
    simp [hp] at this
  · rcases List.mem_cons.mp hb with rfl | hb
    · simp
    · have hlt := (List.pairwise_cons.mp (List.pairwise_append.mp hascending).2.1).1 b hb
      simp [hlt]

theorem LinkPair.item_le_of_compare {p q : LinkPair} (h : compare p q ≠ .gt) :
    p.item ≤ q.item := by
  refine compare_le_iff_le.mp fun hgt => h ?_
  rw [compare_def, hgt]
  rfl

/-! ## Directories -/

theorem Text.cutAt_eq_splitOn (sep : Char) (s : List Char) : cutAt sep s = s.splitOn sep := by
  induction s with
  | nil => rfl
  | cons c s ih =>
    rw [List.splitOn, List.splitOnP_cons_eq_if_modifyHead, cutAt, ih, List.splitOn]
    by_cases hc : c = sep
    · simp [hc]
    · simp only [hc, if_false, beq_iff_eq]
      cases hpieces : s.splitOnP fun x => x == sep with
      | nil => exact absurd hpieces (List.splitOnP_ne_nil _ _)
      | cons piece pieces => rfl

namespace GoldStandard

/-- The directories that an entry names are its pieces between slashes, save the empty ones. -/
theorem directories_eq (entry : String) : directories entry =
    ((entry.toList.splitOn '/').filter (· ≠ [])).map String.ofList := by
  unfold directories
  rw [Text.cutAt_eq_splitOn]
  congr 2
  funext s
  cases s <;> rfl

/-- A slash parts the directories before it from those behind it. -/
theorem directories_append (s t : String) :
    directories (s ++ "/" ++ t) = directories s ++ directories t := by
  have hsplit : (s ++ "/" ++ t).toList.splitOn '/' =
      s.toList.splitOn '/' ++ t.toList.splitOn '/' := by
    have hslash : "/".toList = ['/'] := rfl
    simp only [String.toList_append, hslash, List.append_assoc]
    exact List.splitOnP_append_cons s.toList t.toList (beq_self_eq_true '/')
  simp only [directories_eq, hsplit, List.filter_append, List.map_append]

example : directories "/shop//orders/" = ["shop", "orders"] := by decide

theorem directories_empty : directories "" = [] := rfl

/-- The first entry has one slash more than the second: in front, at the end, or doubled. -/
inductive HasExtraSlash : String → String → Prop
  | leading (s : String) : HasExtraSlash ("/" ++ s) s
  | trailing (s : String) : HasExtraSlash (s ++ "/") s
  | repeated (s t : String) : HasExtraSlash (s ++ "//" ++ t) (s ++ "/" ++ t)

theorem HasExtraSlash.directories_eq {s t : String} (h : HasExtraSlash s t) :
    directories s = directories t := by
  cases h with
  | leading =>
    have := directories_append "" t
    simpa [directories_empty] using this
  | trailing =>
    have := directories_append t ""
    simpa [directories_empty] using this
  | repeated s t =>
    have hslashes : s ++ "//" ++ t = s ++ "/" ++ ("" ++ "/" ++ t) := by
      simp [← String.toList_inj]
    rw [hslashes, directories_append, directories_append, directories_append, directories_empty,
      List.nil_append]

/-- Leading, trailing and repeated slashes do not matter for the directories of an entry. -/
theorem directories_eq_of_eqvGen {s t : String} (h : Relation.EqvGen HasExtraSlash s t) :
    directories s = directories t := by
  induction h with
  | rel s t h => exact h.directories_eq
  | refl => rfl
  | symm s t _ ih => exact ih.symm
  | trans s t u _ _ hst htu => exact hst.trans htu

/-! ## What entries stand for -/

variable {code : Code} {entry id : String}

/-- An entry names a directory that holds a unit, and is not the id of a unit itself. -/
structure IsDirectory (code : Code) (entry : String) : Prop where
  not_unit : ¬ ∃ u ∈ code.units, u.id = entry
  named : directories entry ≠ []
  holds : ∃ u ∈ code.units, directories entry <+: u.path

/-- What an entry stands for: itself, if it is the id of a unit; the units below it, if it is a
directory that holds any; otherwise itself, as a link that cannot be found. -/
inductive StandsFor (code : Code) (entry : String) : String → Prop
  | unit : (∃ u ∈ code.units, u.id = entry) → StandsFor code entry entry
  | below {u : CodeUnit} : IsDirectory code entry → u ∈ code.units →
      directories entry <+: u.path → StandsFor code entry u.id
  | unmatched : ¬ Resolves code entry → StandsFor code entry entry

theorem expand_of_unit (h : ∃ u ∈ code.units, u.id = entry) : expand code entry = [entry] := by
  rw [expand, if_pos (isSome_unit?_iff.mpr h)]

theorem expand_of_isDirectory (h : IsDirectory code entry) :
    expand code entry = unitsBelow code (directories entry) := by
  obtain ⟨u, hu, hprefix⟩ := h.holds
  have hbelow : u.id ∈ unitsBelow code (directories entry) :=
    mem_unitsBelow.mpr ⟨h.named, u, hu, hprefix, rfl⟩
  rw [expand, if_neg (isSome_unit?_iff.not.mpr h.not_unit)]
  exact if_neg (by simpa using List.ne_nil_of_mem hbelow)

/-- The three ways in which an entry can be read, of which one applies. -/
theorem unit_or_isDirectory_or_not_resolves (code : Code) (entry : String) :
    (∃ u ∈ code.units, u.id = entry) ∨ IsDirectory code entry ∨ ¬ Resolves code entry := by
  by_cases hunit : ∃ u ∈ code.units, u.id = entry
  · exact .inl hunit
  · by_cases hbelow : directories entry ≠ [] ∧ ∃ u ∈ code.units, directories entry <+: u.path
    · exact .inr (.inl ⟨hunit, hbelow.1, hbelow.2⟩)
    · exact .inr (.inr fun h => h.elim hunit hbelow)

theorem mem_expand_iff : id ∈ expand code entry ↔ StandsFor code entry id := by
  constructor
  · intro hid
    rcases unit_or_isDirectory_or_not_resolves code entry with hunit | hdir | hnone
    · rw [expand_of_unit hunit] at hid
      obtain rfl := List.mem_singleton.mp hid
      exact .unit hunit
    · rw [expand_of_isDirectory hdir] at hid
      obtain ⟨-, u, hu, hprefix, rfl⟩ := mem_unitsBelow.mp hid
      exact .below hdir hu hprefix
    · rw [expand_of_not_resolves hnone] at hid
      obtain rfl := List.mem_singleton.mp hid
      exact .unmatched hnone
  · intro h
    cases h with
    | unit hunit => rw [expand_of_unit hunit]; exact List.mem_singleton_self _
    | below hdir hu hprefix =>
      rw [expand_of_isDirectory hdir]
      exact mem_unitsBelow.mpr ⟨hdir.named, _, hu, hprefix, rfl⟩
    | unmatched hnone => rw [expand_of_not_resolves hnone]; exact List.mem_singleton_self _

theorem exists_standsFor (code : Code) (entry : String) : ∃ id, StandsFor code entry id := by
  rcases unit_or_isDirectory_or_not_resolves code entry with hunit | hdir | hnone
  · exact ⟨entry, .unit hunit⟩
  · obtain ⟨u, hu, hprefix⟩ := hdir.holds
    exact ⟨u.id, .below hdir hu hprefix⟩
  · exact ⟨entry, .unmatched hnone⟩

theorem standsFor_unit_iff (h : ∃ u ∈ code.units, u.id = entry) :
    StandsFor code entry id ↔ id = entry := by
  rw [← mem_expand_iff, expand_of_unit h, List.mem_singleton]

/-- What an entry stands for stands for nothing but itself: it is the id of a unit, or the entry
itself and no directory. -/
theorem StandsFor.stable {id' : String} (h : StandsFor code entry id) :
    StandsFor code id id' ↔ id' = id := by
  cases h with
  | unit hunit => exact standsFor_unit_iff hunit
  | below _ hu _ => exact standsFor_unit_iff ⟨_, hu, rfl⟩
  | unmatched hnone => rw [← mem_expand_iff, expand_of_not_resolves hnone, List.mem_singleton]

/-- Directories that are spelled with other slashes stand for the same units. -/
theorem IsDirectory.standsFor_congr {entry' : String} (h : IsDirectory code entry)
    (h' : IsDirectory code entry') (hslashes : Relation.EqvGen HasExtraSlash entry entry') :
    StandsFor code entry id ↔ StandsFor code entry' id := by
  rw [← mem_expand_iff, ← mem_expand_iff, expand_of_isDirectory h, expand_of_isDirectory h',
    directories_eq_of_eqvGen hslashes]

/-! ## The enrollment -/

variable {g h g' : GoldStandard} {architecture : Architecture} {p : LinkPair} {e : TraceError}

/-- A gold standard means a pair if it has an entry for the pair's item that stands for its unit. -/
def Means (code : Code) (g : GoldStandard) (p : LinkPair) : Prop :=
  ∃ entry, ⟨p.item, entry⟩ ∈ g.pairs ∧ StandsFor code entry p.unit

/-- The ids of items that a gold standard names and the architecture does not have. -/
def unknownItems (g : GoldStandard) (architecture : Architecture) : Set String :=
  { i | (∃ p ∈ g.pairs, p.item = i) ∧ ∀ j ∈ architecture.items, j.id ≠ i }

theorem ensureItems_eq (architecture : Architecture) (ps : List LinkPair) :
    ensureItems architecture ps =
      match ps.find? fun p => (architecture.item? p.item).isNone with
      | some p => .error (.unresolved (.item p.item))
      | none => .ok () := by
  induction ps with
  | nil => rfl
  | cons p ps ih =>
    rw [ensureItems, Architecture.item, List.find?_cons]
    cases architecture.item? p.item with
    | none => rfl
    | some i => exact ih

theorem isNone_item?_iff {id : String} :
    (architecture.item? id).isNone = true ↔ ∀ j ∈ architecture.items, j.id ≠ id := by
  simp [Architecture.item?]

/-- An enrollment fails exactly if some item is unknown, and names the least of these. -/
theorem enroll_eq_error_iff : g.enroll architecture code = .error e ↔
    ∃ i, IsLeast (g.unknownItems architecture) i ∧ e = .unresolved (.item i) := by
  have hensure : g.enroll architecture code = .error e ↔
      ensureItems architecture g.pairs.elements = .error e :=
    Fallible.bind_eq_error_iff.trans (or_iff_left fun ⟨_, _, h⟩ => nomatch h)
  rw [hensure, ensureItems_eq]
  cases hfind : g.pairs.elements.find? fun p => (architecture.item? p.item).isNone with
  | none =>
    refine iff_of_false (nomatch ·) ?_
    rintro ⟨i, ⟨⟨⟨p, hp, rfl⟩, hunknown⟩, -⟩, -⟩
    exact List.find?_eq_none.mp hfind p hp (isNone_item?_iff.mpr hunknown)
  | some p =>
    -- Pairs are listed by their items first, so the first one refused has the least of these.
    have hleast : IsLeast (g.unknownItems architecture) p.item := by
      have hmem : p ∈ g.pairs := List.mem_of_find?_eq_some hfind
      have hnone : (architecture.item? p.item).isNone = true := by
        simpa using List.find?_some hfind
      refine ⟨⟨⟨p, hmem, rfl⟩, isNone_item?_iff.mp hnone⟩, ?_⟩
      rintro i ⟨⟨q, hq, rfl⟩, hunknown⟩
      exact LinkPair.item_le_of_compare
        (SortedSet.compare_ne_gt_of_find? hfind hq (isNone_item?_iff.mpr hunknown))
    constructor
    · intro he
      exact ⟨p.item, hleast, (Except.error.inj he).symm⟩
    · rintro ⟨i, hi, rfl⟩
      obtain rfl := hleast.unique hi
      rfl

theorem unknownItems_of_enroll (hg : g.enroll architecture code = .ok g') :
    g.unknownItems architecture = ∅ := by
  obtain ⟨_, hensure, -⟩ := Fallible.bind_eq_ok_iff.mp hg
  refine Set.eq_empty_of_forall_notMem ?_
  rintro i ⟨⟨p, hp, rfl⟩, hunknown⟩
  obtain ⟨j, hj, hid⟩ := ensureItems_eq_ok hensure p hp
  exact hunknown j hj hid

theorem exists_enroll_eq_error_iff : (∃ e, g.enroll architecture code = .error e) ↔
    (g.unknownItems architecture).Nonempty := by
  constructor
  · rintro ⟨e, he⟩
    obtain ⟨i, hi, -⟩ := enroll_eq_error_iff.mp he
    exact ⟨i, hi.1⟩
  · intro hunknown
    cases hg : g.enroll architecture code with
    | error e => exact ⟨e, rfl⟩
    | ok g' => exact absurd (unknownItems_of_enroll hg) hunknown.ne_empty

theorem exists_enroll_eq_ok (code : Code) (hknown : g.unknownItems architecture = ∅) :
    ∃ g', g.enroll architecture code = .ok g' := by
  cases hg : g.enroll architecture code with
  | error e => exact absurd hknown (exists_enroll_eq_error_iff.mp ⟨e, hg⟩).ne_empty
  | ok g' => exact ⟨g', rfl⟩

theorem ext_mem (hmem : ∀ p, p ∈ g.pairs ↔ p ∈ h.pairs) : g = h := by
  cases g
  cases h
  rw [mk.injEq]
  exact SortedSet.ext_mem hmem

/-- An enrollment succeeds exactly if no item is unknown, and has the pairs that the gold standard
means. -/
theorem enroll_eq_ok_iff : g.enroll architecture code = .ok g' ↔
    g.unknownItems architecture = ∅ ∧ ∀ p, p ∈ g'.pairs ↔ Means code g p := by
  have hmeans : ∀ {r}, g.enroll architecture code = .ok r → ∀ p, p ∈ r.pairs ↔ Means code g p := by
    intro r hr p
    rw [mem_enrolled (s := ⟨architecture, code⟩) hr]
    constructor
    · rintro ⟨q, hq, hitem, hunit⟩
      exact ⟨q.unit, hitem ▸ hq, mem_expand_iff.mp hunit⟩
    · rintro ⟨entry, hentry, hunit⟩
      exact ⟨_, hentry, rfl, mem_expand_iff.mpr hunit⟩
  constructor
  · exact fun hg => ⟨unknownItems_of_enroll hg, hmeans hg⟩
  · rintro ⟨hknown, hmem⟩
    obtain ⟨r, hr⟩ := exists_enroll_eq_ok code hknown
    rw [hr, ext_mem fun p => (hmeans hr p).trans (hmem p).symm]

/-- The items of a gold standard are those of the pairs that it means. -/
theorem exists_means_iff (code : Code) (g : GoldStandard) {i : String} :
    (∃ p, Means code g p ∧ p.item = i) ↔ ∃ p ∈ g.pairs, p.item = i := by
  constructor
  · rintro ⟨p, ⟨entry, hentry, -⟩, rfl⟩
    exact ⟨_, hentry, rfl⟩
  · rintro ⟨p, hp, rfl⟩
    obtain ⟨id, hid⟩ := exists_standsFor code p.unit
    exact ⟨⟨p.item, id⟩, ⟨p.unit, hp, hid⟩, rfl⟩

theorem unknownItems_congr (hmeans : ∀ p, Means code g p ↔ Means code h p) :
    g.unknownItems architecture = h.unknownItems architecture := by
  refine Set.ext fun i => and_congr_left fun _ => ?_
  rw [← exists_means_iff code g, ← exists_means_iff code h]
  exact exists_congr fun p => and_congr_left fun _ => hmeans p

/-- Gold standards that mean the same pairs are enrolled alike. -/
theorem enroll_congr (hmeans : ∀ p, Means code g p ↔ Means code h p) :
    g.enroll architecture code = h.enroll architecture code := by
  cases hg : g.enroll architecture code with
  | error e =>
    have := enroll_eq_error_iff.mp hg
    rw [unknownItems_congr hmeans] at this
    exact (enroll_eq_error_iff.mpr this).symm
  | ok r =>
    obtain ⟨hknown, hmem⟩ := enroll_eq_ok_iff.mp hg
    rw [unknownItems_congr hmeans] at hknown
    exact (enroll_eq_ok_iff.mpr ⟨hknown, fun p => (hmem p).trans (hmeans p)⟩).symm

/-- An enrollment means just its own pairs. -/
theorem means_of_enroll (hg : g.enroll architecture code = .ok g') :
    Means code g' p ↔ Means code g p := by
  have hmem := (enroll_eq_ok_iff.mp hg).2
  constructor
  · rintro ⟨id, hid, hunit⟩
    obtain ⟨entry, hentry, hunit'⟩ := (hmem ⟨p.item, id⟩).mp hid
    exact ⟨entry, hentry, hunit'.stable.mp hunit ▸ hunit'⟩
  · intro hp
    have hunit := hp.choose_spec.2
    exact ⟨p.unit, (hmem p).mpr hp, hunit.stable.mpr rfl⟩

/-! ## Unions -/

/-- The gold standard with the pairs of both. -/
instance : Union GoldStandard := ⟨fun g h => ofPairs (g.pairs.elements ++ h.pairs.elements)⟩

@[simp] theorem mem_union : p ∈ (g ∪ h).pairs ↔ p ∈ g.pairs ∨ p ∈ h.pairs :=
  SortedSet.mem_ofList.trans List.mem_append

theorem means_union : Means code (g ∪ h) p ↔ Means code g p ∨ Means code h p := by
  simp only [Means, mem_union, or_and_right, exists_or]

theorem unknownItems_union : (g ∪ h).unknownItems architecture =
    g.unknownItems architecture ∪ h.unknownItems architecture := by
  ext i
  simp only [unknownItems, mem_union, or_and_right, exists_or, Set.mem_ofPred_eq, Set.mem_union]

theorem enroll_union_eq_ok_iff {r : GoldStandard} : (g ∪ h).enroll architecture code = .ok r ↔
    ∃ g' h', g.enroll architecture code = .ok g' ∧ h.enroll architecture code = .ok h' ∧
      r = g' ∪ h' := by
  rw [enroll_eq_ok_iff, unknownItems_union, Set.union_empty_iff]
  constructor
  · rintro ⟨⟨hg, hh⟩, hmem⟩
    obtain ⟨g', hg'⟩ := exists_enroll_eq_ok code hg
    obtain ⟨h', hh'⟩ := exists_enroll_eq_ok code hh
    refine ⟨g', h', hg', hh', ext_mem fun p => ?_⟩
    rw [hmem, means_union, mem_union, (enroll_eq_ok_iff.mp hg').2, (enroll_eq_ok_iff.mp hh').2]
  · rintro ⟨g', h', hg', hh', rfl⟩
    obtain ⟨hg, hgmem⟩ := enroll_eq_ok_iff.mp hg'
    obtain ⟨hh, hhmem⟩ := enroll_eq_ok_iff.mp hh'
    exact ⟨⟨hg, hh⟩, fun p => by rw [mem_union, means_union, hgmem, hhmem]⟩

/-! ## Other spellings -/

/-- A pair is another one, except that a directory may be spelled with other slashes. -/
inductive Respells (code : Code) : LinkPair → LinkPair → Prop
  | same (p : LinkPair) : Respells code p p
  | slashes (item : String) {s t : String} : IsDirectory code s → IsDirectory code t →
      Relation.EqvGen HasExtraSlash s t → Respells code ⟨item, s⟩ ⟨item, t⟩

theorem Respells.item_eq {q : LinkPair} (h : Respells code p q) : p.item = q.item := by
  cases h <;> rfl

theorem Respells.standsFor_congr {q : LinkPair} (h : Respells code p q) :
    StandsFor code p.unit id ↔ StandsFor code q.unit id := by
  cases h with
  | same => rfl
  | slashes _ hs ht hslashes => exact hs.standsFor_congr ht hslashes

theorem means_ofPairs {ps : List LinkPair} :
    Means code (ofPairs ps) p ↔ ∃ q ∈ ps, q.item = p.item ∧ StandsFor code q.unit p.unit := by
  constructor
  · rintro ⟨entry, hentry, hunit⟩
    exact ⟨_, SortedSet.mem_ofList.mp hentry, rfl, hunit⟩
  · rintro ⟨q, hq, hitem, hunit⟩
    exact ⟨q.unit, SortedSet.mem_ofList.mpr (hitem ▸ hq), hunit⟩

theorem means_of_respells {ps qs : List LinkPair} (h : List.Forall₂ (Respells code) ps qs) :
    Means code (ofPairs ps) p ↔ Means code (ofPairs qs) p := by
  simp only [means_ofPairs]
  constructor
  · rintro ⟨q, hq, hitem, hunit⟩
    obtain ⟨r, hr, hrespells⟩ := h.exists_of_mem hq
    exact ⟨r, hr, hrespells.item_eq ▸ hitem, hrespells.standsFor_congr.mp hunit⟩
  · rintro ⟨r, hr, hitem, hunit⟩
    obtain ⟨q, hq, hrespells⟩ := h.flip.exists_of_mem hr
    exact ⟨q, hq, hrespells.item_eq ▸ hitem, hrespells.standsFor_congr.mpr hunit⟩

/-! ## What enrolling does -/

/-- Enrolling a gold standard fails exactly if the architecture does not have one of its items, and
then names the least of these. Otherwise it replaces each entry by all that it stands for
(`StandsFor`), where the directories of an entry are its non-empty pieces between slashes. Enrolling
the result again changes nothing, other slashes in the names of directories change nothing, and the
enrollment of a union is the union of the enrollments. -/
theorem enroll_replaces_entries (g : GoldStandard) (architecture : Architecture) (code : Code) :
    ((∃ e, g.enroll architecture code = .error e) ↔ (g.unknownItems architecture).Nonempty) ∧
      (∀ e, g.enroll architecture code = .error e ↔
        ∃ i, IsLeast (g.unknownItems architecture) i ∧ e = .unresolved (.item i)) ∧
      (∀ g', g.enroll architecture code = .ok g' ↔ g.unknownItems architecture = ∅ ∧
        ∀ p, p ∈ g'.pairs ↔ ∃ entry, ⟨p.item, entry⟩ ∈ g.pairs ∧ StandsFor code entry p.unit) ∧
      (∀ entry, directories entry =
        ((entry.toList.splitOn '/').filter (· ≠ [])).map String.ofList) ∧
      (∀ g', g.enroll architecture code = .ok g' → g'.enroll architecture code = .ok g') ∧
      (∀ ps qs, List.Forall₂ (Respells code) ps qs →
        (ofPairs ps).enroll architecture code = (ofPairs qs).enroll architecture code) ∧
      ∀ h r, (g ∪ h).enroll architecture code = .ok r ↔
        ∃ g' h', g.enroll architecture code = .ok g' ∧ h.enroll architecture code = .ok h' ∧
          r = g' ∪ h' := by
  refine ⟨exists_enroll_eq_error_iff, fun e => enroll_eq_error_iff, fun g' => enroll_eq_ok_iff,
    directories_eq, fun g' hg => ?_, fun ps qs hrespells => ?_, fun h r => enroll_union_eq_ok_iff⟩
  · have hsame : g'.enroll architecture code = g.enroll architecture code :=
      enroll_congr fun p => means_of_enroll hg
    exact hsame.trans hg
  · exact enroll_congr fun p => means_of_respells hrespells

end GoldStandard

/-! ## A small example -/

/-- Units in nested directories, one of which has a name that begins like another's. -/
def OrderDesk.nested : Code where
  units :=
    [(CodeUnit.named "a" "Orders").withPath ["shop", "orders"],
      (CodeUnit.named "b" "OrdersTest").withPath ["shop", "orders", "test"],
      (CodeUnit.named "c" "Invoice").withPath ["shop", "ordersx"]]
  packages := []
  distinct := by decide
  declared := by decide

open GoldStandard OrderDesk in
/-- A directory is replaced by the two units below it, however its name is spelled; a unit and an
entry that names nothing are kept. Of two unknown items the lesser one is named. -/
theorem GoldStandard.enroll_replaces_entries_nested : ∃ g',
    (ofPairs [⟨"orders", "shop/orders/"⟩, ⟨"orders", "c"⟩, ⟨"billing", "shop/billing"⟩]).enroll
        architecture nested = .ok g' ∧
      g'.pairs.elements =
        [⟨"billing", "shop/billing"⟩, ⟨"orders", "a"⟩, ⟨"orders", "b"⟩, ⟨"orders", "c"⟩] ∧
      g'.enroll architecture nested = .ok g' ∧
      (ofPairs [⟨"orders", "/shop//orders"⟩, ⟨"orders", "c"⟩, ⟨"billing", "shop/billing"⟩]).enroll
        architecture nested = .ok g' ∧
      (ofPairs [⟨"stock", "a"⟩, ⟨"returns", "a"⟩]).enroll architecture nested =
        .error (.unresolved (.item "returns")) := by
  obtain ⟨g', hg, helements⟩ := Fallible.exists_of_any_toOption
    (x := (ofPairs [⟨"orders", "shop/orders/"⟩, ⟨"orders", "c"⟩, ⟨"billing", "shop/billing"⟩]).enroll
      architecture nested)
    (p := fun g' => decide (g'.pairs.elements =
      [⟨"billing", "shop/billing"⟩, ⟨"orders", "a"⟩, ⟨"orders", "b"⟩, ⟨"orders", "c"⟩]))
    (by decide +kernel)
  have isDirectory : ∀ entry, (∀ u ∈ nested.units, u.id ≠ entry) →
      directories entry = ["shop", "orders"] → IsDirectory nested entry := by
    intro entry hunit hentry
    refine ⟨by simpa using hunit, by simp [hentry], _, List.mem_cons_self, ?_⟩
    rw [hentry]
    exact List.prefix_rfl
  have hspelled : Relation.EqvGen HasExtraSlash "shop/orders/" "/shop//orders" := by
    refine .trans _ "shop/orders" _ (.rel _ _ (.trailing "shop/orders")) (.symm _ _ ?_)
    exact .trans _ "shop//orders" _ (.rel _ _ (.leading "shop//orders"))
      (.rel _ _ (.repeated "shop" "orders"))
  have hrespells := List.Forall₂.cons (Respells.slashes "orders"
      (isDirectory "shop/orders/" (by decide) (by decide))
      (isDirectory "/shop//orders" (by decide) (by decide)) hspelled)
    (.cons (.same ⟨"orders", "c"⟩) (.cons (.same ⟨"billing", "shop/billing"⟩) .nil))
  obtain ⟨-, -, -, -, hagain, hslashes, -⟩ := enroll_replaces_entries
    (ofPairs [⟨"orders", "shop/orders/"⟩, ⟨"orders", "c"⟩, ⟨"billing", "shop/billing"⟩])
    architecture nested
  obtain ⟨-, herror, -⟩ := enroll_replaces_entries (ofPairs [⟨"stock", "a"⟩, ⟨"returns", "a"⟩])
    architecture nested
  refine ⟨g', hg, of_decide_eq_true helements, hagain g' hg,
    (hslashes _ _ hrespells).symm.trans hg, (herror _).mpr ⟨"returns", ⟨?_, ?_⟩, rfl⟩⟩
  · exact ⟨⟨⟨"returns", "a"⟩, SortedSet.mem_ofList.mpr (by decide), rfl⟩, by decide⟩
  · rintro i ⟨⟨p, hp, rfl⟩, -⟩
    have hp : p ∈ [(⟨"stock", "a"⟩ : LinkPair), ⟨"returns", "a"⟩] := SortedSet.mem_ofList.mp hp
    revert p
    decide

end TraceRecovery
