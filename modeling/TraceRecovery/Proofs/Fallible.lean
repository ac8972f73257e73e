import Mathlib.Data.List.Perm.Basic

/-!
# Computations that may fail

When a sequence of two computations, or of one for each element of a list, succeeds or fails. Each
runs only if all before it succeed, so it is the first failure that is reported. `Fallible.Ends`
states of a computation what holds of its result and what of its error.
-/

theorem List.Forall₂.exists_of_mem {α β : Type} {R : α → β → Prop} {l : List α} {l' : List β}
    (h : List.Forall₂ R l l') {a : α} (ha : a ∈ l) : ∃ b ∈ l', R a b := by
  induction h with
  | nil => cases ha
  | @cons x b l l' hb _ ih =>
    rcases List.mem_cons.mp ha with rfl | ha
    · exact ⟨b, List.mem_cons_self, hb⟩
    · obtain ⟨b', hb', h⟩ := ih ha
      exact ⟨b', List.mem_cons_of_mem b hb', h⟩

namespace TraceRecovery

namespace Fallible

variable {ε α β : Type}

/-- A result satisfies one condition, an error the other. -/
def Ends (p : α → Prop) (q : ε → Prop) : Except ε α → Prop
  | .ok a => p a
  | .error e => q e

theorem Ends.of_eq_ok {p : α → Prop} {q : ε → Prop} {x : Except ε α} {a : α} (h : Ends p q x)
    (hx : x = .ok a) : p a := by
  rwa [hx] at h

theorem Ends.of_eq_error {p : α → Prop} {q : ε → Prop} {x : Except ε α} {e : ε} (h : Ends p q x)
    (hx : x = .error e) : q e := by
  rwa [hx] at h

theorem bind_eq_ok_iff {x : Except ε α} {f : α → Except ε β} {b : β} :
    x >>= f = .ok b ↔ ∃ a, x = .ok a ∧ f a = .ok b := by
  cases x with
  | error e => simp [bind, Except.bind]
  | ok a => simp [bind, Except.bind]

theorem bind_eq_error_iff {x : Except ε α} {f : α → Except ε β} {e : ε} :
    x >>= f = .error e ↔ x = .error e ∨ ∃ a, x = .ok a ∧ f a = .error e := by
  cases x with
  | error e => simp [bind, Except.bind]
  | ok a => simp [bind, Except.bind]

theorem exists_of_any_toOption {x : Except ε α} {p : α → Bool} (h : x.toOption.any p = true) :
    ∃ a, x = .ok a ∧ p a = true := by
  cases x with
  | error e => cases h
  | ok a => exact ⟨a, rfl, h⟩

theorem map_eq_ok_iff {x : Except ε α} {f : α → β} {b : β} :
    f <$> x = .ok b ↔ ∃ a, x = .ok a ∧ f a = b := by
  cases x <;> simp [Functor.map, Except.map]

theorem eq_ok_of_isOk {x : Except ε Unit} (h : x.isOk = true) : x = .ok () := by
  cases x with
  | error e => cases h
  | ok u => rfl

/-- The error of a computation that fails. -/
def error? : Except ε α → Option ε
  | .ok _ => none
  | .error e => some e

@[simp]
theorem error?_eq_some_iff {x : Except ε α} {e : ε} : error? x = some e ↔ x = .error e := by
  cases x <;> simp [error?]

@[simp]
theorem error?_eq_none_iff {x : Except ε α} : error? x = none ↔ ∃ a, x = .ok a := by
  cases x <;> simp [error?]

theorem mapM_eq_ok_iff {f : α → Except ε β} {l : List α} {bs : List β} :
    l.mapM f = .ok bs ↔ List.Forall₂ (fun a b => f a = .ok b) l bs := by
  induction l generalizing bs with
  | nil => simp [pure, Except.pure, eq_comm]
  | cons a l ih =>
    rw [List.mapM_cons, List.forall₂_cons_left_iff, bind_eq_ok_iff]
    constructor
    · rintro ⟨b, hb, h⟩
      obtain ⟨bs', hbs, h⟩ := bind_eq_ok_iff.mp h
      exact ⟨b, bs', hb, ih.mp hbs, (Except.ok.inj h).symm⟩
    · rintro ⟨b, bs', hb, hbs, rfl⟩
      exact ⟨b, hb, bind_eq_ok_iff.mpr ⟨bs', ih.mpr hbs, rfl⟩⟩

theorem length_of_mapM_eq_ok {f : α → Except ε β} {l : List α} {bs : List β}
    (h : l.mapM f = .ok bs) : bs.length = l.length :=
  (mapM_eq_ok_iff.mp h).length_eq.symm

theorem exists_mapM_eq_ok_iff {f : α → Except ε β} {l : List α} :
    (∃ bs, l.mapM f = .ok bs) ↔ ∀ a ∈ l, ∃ b, f a = .ok b := by
  simp only [mapM_eq_ok_iff]
  induction l with
  | nil => exact ⟨fun _ => by simp, fun _ => ⟨[], .nil⟩⟩
  | cons a l ih =>
    rw [List.forall_mem_cons, ← ih]
    constructor
    · rintro ⟨_, _ | ⟨hb, hbs⟩⟩
      exact ⟨⟨_, hb⟩, _, hbs⟩
    · rintro ⟨⟨b, hb⟩, bs, hbs⟩
      exact ⟨b :: bs, .cons hb hbs⟩

theorem exists_of_mem_mapM {f : α → Except ε β} {l : List α} {bs : List β} (h : l.mapM f = .ok bs)
    {b : β} (hb : b ∈ bs) : ∃ a ∈ l, f a = .ok b :=
  (mapM_eq_ok_iff.mp h).flip.exists_of_mem hb

/-- The results of elements in another order are the same in another order. -/
theorem mapM_eq_ok_of_perm {f : α → Except ε β} {l l' : List α} {bs : List β} (hp : l'.Perm l)
    (h : l.mapM f = .ok bs) : ∃ bs', l'.mapM f = .ok bs' ∧ bs'.Perm bs := by
  obtain ⟨bs', hbs', hperm⟩ := List.perm_comp_forall₂ hp (mapM_eq_ok_iff.mp h)
  exact ⟨bs', mapM_eq_ok_iff.mpr hbs', hperm⟩

theorem exists_of_mapM_eq_error {f : α → Except ε β} {l : List α} {e : ε}
    (h : l.mapM f = .error e) : ∃ a ∈ l, f a = .error e := by
  induction l with
  | nil => cases h
  | cons a l ih =>
    rw [List.mapM_cons] at h
    rcases bind_eq_error_iff.mp h with ha | ⟨b, -, h⟩
    · exact ⟨a, List.mem_cons_self, ha⟩
    · rcases bind_eq_error_iff.mp h with hl | ⟨bs, -, h⟩
      · obtain ⟨x, hx, he⟩ := ih hl
        exact ⟨x, List.mem_cons_of_mem a hx, he⟩
      · cases h

theorem mapM_congr {f g : α → Except ε β} {l : List α} (h : ∀ a ∈ l, f a = g a) :
    l.mapM f = l.mapM g := by
  induction l with
  | nil => rfl
  | cons a l ih =>
    rw [List.mapM_cons, List.mapM_cons, h a List.mem_cons_self,
      ih fun b hb => h b (List.mem_cons_of_mem a hb)]

/-- Elements that are taken in turn fail at the first that fails in the state before it. -/
theorem foldlM_eq_error_iff {f : β → α → Except ε β} {l : List α} {b : β} {e : ε} :
    l.foldlM f b = .error e ↔ ∃ before a after, l = before ++ a :: after ∧
      ∃ b', before.foldlM f b = .ok b' ∧ f b' a = .error e := by
  constructor
  · induction l generalizing b with
    | nil => exact fun h => nomatch h
    | cons a l ih =>
      intro h
      rw [List.foldlM_cons] at h
      rcases bind_eq_error_iff.mp h with ha | ⟨b', ha, h⟩
      · exact ⟨[], a, l, rfl, b, rfl, ha⟩
      · obtain ⟨before, x, after, rfl, b'', hbefore, hx⟩ := ih h
        refine ⟨a :: before, x, after, rfl, b'', ?_, hx⟩
        rw [List.foldlM_cons]
        exact bind_eq_ok_iff.mpr ⟨b', ha, hbefore⟩
  · rintro ⟨before, a, after, rfl, b', hbefore, ha⟩
    rw [List.foldlM_append]
    refine bind_eq_error_iff.mpr (.inr ⟨b', hbefore, ?_⟩)
    rw [List.foldlM_cons]
    exact bind_eq_error_iff.mpr (.inl ha)

/-- The elements and their results, paired up, hold the result of each element. -/
theorem lookup_zip [BEq α] [LawfulBEq α] {f : α → Except ε β} {l : List α} {bs : List β}
    (h : l.mapM f = .ok bs) {a : α} (ha : a ∈ l) :
    ∃ b, (l.zip bs).lookup a = some b ∧ f a = .ok b := by
  rw [mapM_eq_ok_iff] at h
  induction h with
  | nil => cases ha
  | @cons x b l bs hb _ ih =>
    rw [List.zip_cons_cons, List.lookup_cons]
    cases heq : a == x with
    | true =>
      obtain rfl := eq_of_beq heq
      exact ⟨b, rfl, hb⟩
    | false =>
      have hne : a ≠ x := by
        rintro rfl
        simp at heq
      exact ih ((List.mem_cons.mp ha).resolve_left hne)

end Fallible

end TraceRecovery
