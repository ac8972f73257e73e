/-!
# Sorted sets

Sets of values that are listed in ascending order, without repetition. The list is part of the
type, so two sets with the same elements are equal (`SortedSet.ext_mem`), whatever the order in
which the elements were inserted.
-/

namespace TraceRecovery

/-- A set as the ascending list of its elements. -/
structure SortedSet (α : Type) [Ord α] where
  elements : List α
  ascending : elements.Pairwise fun a b => compare a b = .lt

namespace SortedSet

variable {α : Type} [Ord α]

/-- Inserts a value into an ascending list at its place, unless it is there. -/
def insertInto (a : α) : List α → List α
  | [] => [a]
  | b :: bs =>
    match compare a b with
    | .lt => a :: b :: bs
    | .eq => b :: bs
    | .gt => b :: insertInto a bs

theorem mem_insertInto [Std.LawfulEqOrd α] {a x : α} {l : List α} :
    x ∈ insertInto a l ↔ x = a ∨ x ∈ l := by
  induction l with
  | nil => simp [insertInto]
  | cons b bs ih =>
    unfold insertInto
    split
    · simp
    · rename_i h
      have : a = b := Std.LawfulEqOrd.eq_of_compare h
      subst this
      simp
    · simp only [List.mem_cons, ih]
      constructor
      · rintro (h | h | h)
        · exact .inr (.inl h)
        · exact .inl h
        · exact .inr (.inr h)
      · rintro (h | h | h)
        · exact .inr (.inl h)
        · exact .inl h
        · exact .inr (.inr h)

theorem insertInto_ascending [Std.TransOrd α] [Std.LawfulEqOrd α] {a : α} {l : List α}
    (h : l.Pairwise fun a b => compare a b = .lt) :
    (insertInto a l).Pairwise fun a b => compare a b = .lt := by
  induction l with
  | nil => simp [insertInto]
  | cons b bs ih =>
    obtain ⟨hb, hbs⟩ := List.pairwise_cons.mp h
    unfold insertInto
    split
    · rename_i hab
      refine List.pairwise_cons.mpr ⟨fun x hx => ?_, h⟩
      rcases List.mem_cons.mp hx with rfl | hx
      · exact hab
      · exact Std.TransCmp.lt_trans hab (hb x hx)
    · exact h
    · rename_i hab
      refine List.pairwise_cons.mpr ⟨fun x hx => ?_, ih hbs⟩
      rcases mem_insertInto.mp hx with rfl | hx
      · exact Std.OrientedCmp.lt_of_gt hab
      · exact hb x hx

/-- The set without elements. -/
def empty : SortedSet α := ⟨[], List.Pairwise.nil⟩

instance : Membership α (SortedSet α) := ⟨fun s a => a ∈ s.elements⟩

/-- Whether a value is an element. -/
def contains [BEq α] (s : SortedSet α) (a : α) : Bool := s.elements.contains a

def size (s : SortedSet α) : Nat := s.elements.length

theorem mem_def {s : SortedSet α} {a : α} : a ∈ s ↔ a ∈ s.elements := Iff.rfl

@[simp] theorem not_mem_empty {a : α} : a ∉ (empty : SortedSet α) := by simp [mem_def, empty]

theorem contains_iff [BEq α] [LawfulBEq α] {s : SortedSet α} {a : α} :
    s.contains a = true ↔ a ∈ s := by
  simp [contains, mem_def]

/-- No element is listed twice. -/
theorem nodup [Std.ReflCmp (compare : α → α → Ordering)] (s : SortedSet α) :
    s.elements.Nodup := by
  refine s.ascending.imp fun {a b} h => ?_
  rintro rfl
  simp at h

variable [Std.TransOrd α] [Std.LawfulEqOrd α]

/-- The set with one more element. -/
def insert (s : SortedSet α) (a : α) : SortedSet α :=
  ⟨insertInto a s.elements, insertInto_ascending s.ascending⟩

/-- The set of the elements of a list. -/
def ofList (l : List α) : SortedSet α := l.foldl insert empty

@[simp] theorem mem_insert {s : SortedSet α} {a x : α} : x ∈ s.insert a ↔ x = a ∨ x ∈ s :=
  mem_insertInto

theorem mem_foldl_insert {l : List α} {s : SortedSet α} {x : α} :
    x ∈ l.foldl insert s ↔ x ∈ l ∨ x ∈ s := by
  induction l generalizing s with
  | nil => simp
  | cons a l ih =>
    simp only [List.foldl_cons, ih, mem_insert, List.mem_cons]
    constructor
    · rintro (h | h | h)
      · exact .inl (.inr h)
      · exact .inl (.inl h)
      · exact .inr h
    · rintro ((h | h) | h)
      · exact .inr (.inl h)
      · exact .inl h
      · exact .inr (.inr h)

/-- The set of a list has the elements of the list. -/
@[simp] theorem mem_ofList {l : List α} {x : α} : x ∈ ofList l ↔ x ∈ l := by
  simp [ofList, mem_foldl_insert]

/-- Two ascending lists with the same elements are equal. -/
theorem eq_of_mem_iff {l l' : List α} (h : l.Pairwise fun a b => compare a b = .lt)
    (h' : l'.Pairwise fun a b => compare a b = .lt) (hm : ∀ x, x ∈ l ↔ x ∈ l') : l = l' := by
  induction l generalizing l' with
  | nil =>
    cases l' with
    | nil => rfl
    | cons b bs => exact absurd ((hm b).mpr (by simp)) (by simp)
  | cons a as ih =>
    cases l' with
    | nil => exact absurd ((hm a).mp (by simp)) (by simp)
    | cons b bs =>
      obtain ⟨ha, has⟩ := List.pairwise_cons.mp h
      obtain ⟨hb, hbs⟩ := List.pairwise_cons.mp h'
      have irrefl : ∀ x : α, compare x x ≠ .lt := fun x => by simp
      have hab : a = b := by
        rcases List.mem_cons.mp ((hm a).mp (by simp)) with e | e
        · exact e
        · rcases List.mem_cons.mp ((hm b).mpr (by simp)) with e' | e'
          · exact e'.symm
          · exact absurd (Std.TransCmp.lt_trans (ha b e') (hb a e)) (irrefl a)
      subst hab
      congr 1
      refine ih has hbs fun x => ⟨fun hx => ?_, fun hx => ?_⟩
      · rcases List.mem_cons.mp ((hm x).mp (by simp [hx])) with rfl | e
        · exact absurd (ha x hx) (irrefl x)
        · exact e
      · rcases List.mem_cons.mp ((hm x).mpr (by simp [hx])) with rfl | e
        · exact absurd (hb x hx) (irrefl x)
        · exact e

/-- Two sets with the same elements are equal. -/
theorem ext_mem {s t : SortedSet α} (h : ∀ x, x ∈ s ↔ x ∈ t) : s = t := by
  cases s
  cases t
  congr 1
  exact eq_of_mem_iff (by assumption) (by assumption) h

end SortedSet

end TraceRecovery
