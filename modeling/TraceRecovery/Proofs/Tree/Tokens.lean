import Mathlib.Data.List.Induction
import TraceRecovery.Tree.Cancellation

/-!
# Tokens and their families

A token carries just what its origin says: the family that it was derived in, and how it was made
from the first token of that family, step by step (`Origin`). Its timeout is the latest that was set
along the way (`Making.timeout_applyAll`), and its deadline the one that the latest start fixed, by
the timeout at that time (`Making.deadline_applyAll`).

All tokens in use are the picture of a `History`, which keeps their origins and on which of them
`cancel` was called (`History.tokens_next`, `History.tokens_after`). So a token is cancelled exactly
if that happened in its family or its deadline has been reached (`History.isCancelled_iff`), and it
stays so, since nothing that is done with tokens takes anything of this back (`Tokens.Later`).
-/

namespace TraceRecovery

/-! ## Origins -/

/-- How a token is made from another one. -/
inductive Making where
  | clone
  | withTimeout (milliseconds : Nat)
  | start (time : Nat)

/-- The latest element of a list that satisfies a condition, with the elements before it. -/
def IsLatest {α : Type} (p : α → Prop) (l before : List α) (x : α) : Prop :=
  p x ∧ ∃ after, l = before ++ x :: after ∧ ∀ y ∈ after, ¬ p y

theorem isLatest_concat {α : Type} {p : α → Prop} {l before : List α} {a x : α} :
    IsLatest p (l ++ [a]) before x ↔
      p a ∧ before = l ∧ x = a ∨ ¬ p a ∧ IsLatest p l before x := by
  constructor
  · rintro ⟨hx, after, hl, hafter⟩
    rcases List.eq_nil_or_concat after with rfl | ⟨between, b, rfl⟩
    · obtain ⟨rfl, hax⟩ := List.append_inj' hl rfl
      obtain rfl := List.singleton_inj.mp hax
      exact .inl ⟨hx, rfl, rfl⟩
    · rw [List.concat_eq_append, ← List.cons_append, ← List.append_assoc] at hl
      obtain ⟨rfl, hab⟩ := List.append_inj' hl rfl
      obtain rfl := List.singleton_inj.mp hab
      refine .inr ⟨hafter a (by simp), hx, between, rfl, fun y hy => hafter y (by simp [hy])⟩
  · rintro (⟨ha, rfl, rfl⟩ | ⟨ha, hx, after, rfl, hafter⟩)
    · exact ⟨ha, [], rfl, by simp⟩
    · refine ⟨hx, after ++ [a], by simp, fun y hy => ?_⟩
      rcases List.mem_append.mp hy with hy | hy
      · exact hafter y hy
      · exact List.mem_singleton.mp hy ▸ ha

namespace Making

def IsTimeout (m : Making) : Prop := ∃ milliseconds, m = .withTimeout milliseconds

def IsStart (m : Making) : Prop := ∃ time, m = .start time

/-- The timeout that was set last. -/
def LatestTimeout (makings : List Making) (milliseconds : Nat) : Prop :=
  ∃ before, IsLatest IsTimeout makings before (.withTimeout milliseconds)

/-- The deadline that the latest start fixed, by the timeout that had been set by then. -/
def Deadline (makings : List Making) (deadline : Nat) : Prop :=
  ∃ before time milliseconds, IsLatest IsStart makings before (.start time) ∧
    LatestTimeout before milliseconds ∧ deadline = time + milliseconds

/-- The token that is made of another one. -/
def apply (t : Token) : Making → Token
  | .clone => t
  | .withTimeout milliseconds => t.withTimeout milliseconds
  | .start time => t.start time

/-- The token that comes of the first one of a family. -/
def applyAll (family : Nat) (makings : List Making) : Token := makings.foldl apply (.first family)

variable {family milliseconds deadline : Nat} {makings : List Making} {m : Making}

@[simp]
theorem applyAll_concat : applyAll family (makings ++ [m]) = apply (applyAll family makings) m := by
  simp [applyAll]

@[simp]
theorem family_applyAll : (applyAll family makings).family = family := by
  induction makings using List.reverseRecOn with
  | nil => rfl
  | append_singleton makings m ih =>
    rw [applyAll_concat]
    cases m <;> exact ih

theorem timeout_applyAll :
    (applyAll family makings).timeout = some milliseconds ↔ LatestTimeout makings milliseconds := by
  induction makings using List.reverseRecOn with
  | nil => simp [applyAll, Token.first, LatestTimeout, IsLatest]
  | append_singleton makings m ih =>
    rw [applyAll_concat]
    unfold LatestTimeout at ih ⊢
    simp only [isLatest_concat]
    cases m with
    | clone => simpa [apply, IsTimeout] using ih
    | withTimeout n => simp [apply, Token.withTimeout, IsTimeout, eq_comm]
    | start time => simpa [apply, Token.start, IsTimeout] using ih

theorem deadline_applyAll :
    (applyAll family makings).deadline = some deadline ↔ Deadline makings deadline := by
  induction makings using List.reverseRecOn with
  | nil => simp [applyAll, Token.first, Deadline, IsLatest]
  | append_singleton makings m ih =>
    rw [applyAll_concat]
    unfold Deadline at ih ⊢
    simp only [isLatest_concat]
    cases m with
    | clone => simpa [apply, IsStart] using ih
    | withTimeout n => simpa [apply, Token.withTimeout, IsStart] using ih
    | start time =>
      simp only [apply, Token.start, Option.map_eq_some_iff, timeout_applyAll]
      simp [IsStart, eq_comm]

/-- A start fixes a deadline if a timeout has been set, which counts from the start. -/
theorem deadline_concat_start {time : Nat} : Deadline (makings ++ [.start time]) deadline ↔
    ∃ milliseconds, LatestTimeout makings milliseconds ∧ deadline = time + milliseconds := by
  simp [Deadline, isLatest_concat, IsStart]

theorem not_deadline_of_not_started (h : ∀ time, .start time ∉ makings) :
    ¬ Deadline makings deadline := by
  rintro ⟨before, time, _, ⟨-, after, rfl, -⟩, -⟩
  exact h time (by simp)

end Making

/-- Where a token comes from: the number of its family, and how it was made from the first token of
that family, one making after another. -/
structure Origin where
  family : Nat
  makings : List Making

/-- The token of an origin. -/
def Origin.token (o : Origin) : Token := Making.applyAll o.family o.makings

/-! ## Histories -/

/-- What has been done with tokens: the origins of all that have been made, by their numbers, and of
those on which `cancel` was called. -/
structure History where
  begun : Nat
  origins : List Origin
  cancelled : List Origin
  now : Nat

namespace History

/-- Nothing has been done. -/
def empty : History := ⟨0, [], [], 0⟩

/-- Makes a token of the one with a number; a number without token changes nothing. -/
def derive (h : History) (id : Nat) (m : Making) : History :=
  match h.origins[id]? with
  | some o => { h with origins := h.origins ++ [⟨o.family, o.makings ++ [m]⟩] }
  | none => h

/-- The history after a step. -/
def next (h : History) : TokenStep → History
  | .begin => { h with begun := h.begun + 1, origins := h.origins ++ [⟨h.begun, []⟩] }
  | .clone id => h.derive id .clone
  | .withTimeout id milliseconds => h.derive id (.withTimeout milliseconds)
  | .start id => h.derive id (.start h.now)
  | .cancel id =>
    match h.origins[id]? with
    | some o => { h with cancelled := o :: h.cancelled }
    | none => h
  | .ask _ => h
  | .wait milliseconds => { h with now := h.now + milliseconds }

/-- The history after some steps. -/
def after (h : History) (steps : List TokenStep) : History := steps.foldl next h

/-- The tokens in use after a history. -/
def tokens (h : History) : Tokens where
  families := ⟨h.begun, h.cancelled.map Origin.family⟩
  made := h.origins.map Origin.token
  now := h.now

/-- `cancel` was called on a token of a family. -/
def FamilyCancelled (h : History) (family : Nat) : Prop := ∃ o ∈ h.cancelled, o.family = family

variable {h : History} {o : Origin} {id : Nat}

theorem getElem?_made : h.tokens.made[id]? = h.origins[id]?.map Origin.token :=
  List.getElem?_map

theorem tokens_derive {m : Making} {make : Token → Token} (hmake : ∀ t, Making.apply t m = make t) :
    (h.derive id m).tokens = h.tokens.derive id make := by
  unfold derive Tokens.derive
  rw [getElem?_made]
  cases h.origins[id]? with
  | none => rfl
  | some o => simp [tokens, Origin.token, hmake]

theorem tokens_next (step : TokenStep) : (h.next step).tokens = h.tokens.next step := by
  cases step with
  | begin => simp [next, tokens, Tokens.next, Families.begin, Origin.token, Making.applyAll]
  | clone id => exact tokens_derive fun _ => rfl
  | withTimeout id milliseconds => exact tokens_derive fun _ => rfl
  | start id => exact tokens_derive fun _ => rfl
  | cancel id =>
    simp only [next, Tokens.next, getElem?_made]
    cases h.origins[id]? with
    | none => rfl
    | some o => simp [tokens, Families.cancel, Origin.token]
  | ask id => rfl
  | wait milliseconds => rfl

/-- The tokens that any steps lead to are those of the history of these steps. -/
theorem tokens_after (steps : List TokenStep) : (h.after steps).tokens = h.tokens.after steps := by
  induction steps generalizing h with
  | nil => rfl
  | cons step steps ih =>
    show ((h.next step).after steps).tokens = (h.tokens.next step).after steps
    rw [ih, tokens_next]

/-- A token is cancelled if `cancel` was called on some token of its family, or if the deadline that
its latest start fixed has been reached, and not otherwise. -/
theorem isCancelled_iff (ho : h.origins[id]? = some o) : h.tokens.isCancelled id = true ↔
    h.FamilyCancelled o.family ∨ ∃ d, Making.Deadline o.makings d ∧ d ≤ h.now := by
  rw [Tokens.isCancelled, getElem?_made, ho, Option.map_some, Option.any_some,
    Families.isCancelled, Bool.or_eq_true, List.contains_iff_mem, Option.any_eq_true]
  simp only [decide_eq_true_eq, Origin.token, Making.deadline_applyAll, Making.family_applyAll]
  exact or_congr_left List.mem_map

/-- Each start counts from its own time. -/
example :
    let w := Tokens.empty.after [.begin, .withTimeout 0 50, .start 1, .wait 80, .start 1]
    [w.isCancelled 1, w.isCancelled 2, w.isCancelled 3] = [false, true, false] := by
  decide

/-- A token that has never been started is cancelled by its family alone, whatever its timeout. -/
theorem isCancelled_iff_of_not_started (ho : h.origins[id]? = some o)
    (hstart : ∀ time, .start time ∉ o.makings) :
    h.tokens.isCancelled id = true ↔ h.FamilyCancelled o.family := by
  rw [isCancelled_iff ho]
  exact or_iff_left fun ⟨_, hd, _⟩ => Making.not_deadline_of_not_started hstart hd

/-- A token that is started now is cancelled at once by its family or by a timeout of zero, and by
no deadline of an earlier start. -/
theorem isCancelled_start_iff (ho : h.origins[id]? = some o) :
    (h.tokens.next (.start id)).isCancelled h.tokens.made.length = true ↔
      h.FamilyCancelled o.family ∨ Making.LatestTimeout o.makings 0 := by
  have hnext : h.next (.start id) =
      { h with origins := h.origins ++ [⟨o.family, o.makings ++ [.start h.now]⟩] } := by
    simp [next, derive, ho]
  have hmade : h.tokens.made.length = h.origins.length := List.length_map _
  have hnew : (h.next (.start id)).origins[h.origins.length]? =
      some ⟨o.family, o.makings ++ [.start h.now]⟩ := by
    simp [hnext]
  rw [← tokens_next, hmade, isCancelled_iff hnew, hnext]
  refine or_congr_right ?_
  simp only [Making.deadline_concat_start]
  constructor
  · rintro ⟨_, ⟨milliseconds, htimeout, rfl⟩, hle⟩
    obtain rfl : milliseconds = 0 := by omega
    exact htimeout
  · exact fun htimeout => ⟨_, ⟨0, htimeout, rfl⟩, Nat.le_refl _⟩

/-- Calling `cancel` on a token cancels all tokens of its family, and no others. -/
theorem isCancelled_cancel_iff {o' : Origin} {id' : Nat} (ho : h.origins[id]? = some o)
    (ho' : h.origins[id']? = some o') : (h.tokens.next (.cancel id')).isCancelled id = true ↔
      o'.family = o.family ∨ h.tokens.isCancelled id = true := by
  have hnext : h.next (.cancel id') = { h with cancelled := o' :: h.cancelled } := by
    simp [next, ho']
  have hkept : (h.next (.cancel id')).origins[id]? = some o := by rwa [hnext]
  rw [← tokens_next, isCancelled_iff hkept, isCancelled_iff ho, ← or_assoc, hnext]
  simp [FamilyCancelled]

theorem familyCancelled_next_iff {family : Nat} {step : TokenStep} :
    (h.next step).FamilyCancelled family ↔ h.FamilyCancelled family ∨
      ∃ id o, step = .cancel id ∧ h.origins[id]? = some o ∧ o.family = family := by
  have hderive : ∀ id m, (h.derive id m).cancelled = h.cancelled := by
    intro id m
    unfold derive
    cases h.origins[id]? <;> rfl
  cases step with
  | cancel id =>
    cases ho : h.origins[id]? with
    | none => simp [next, ho, FamilyCancelled]
    | some o => simp [next, ho, FamilyCancelled, or_comm]
  | begin => simp [next, FamilyCancelled]
  | clone id => simp [next, FamilyCancelled, hderive]
  | withTimeout id milliseconds => simp [next, FamilyCancelled, hderive]
  | start id => simp [next, FamilyCancelled, hderive]
  | ask id => simp [next, FamilyCancelled]
  | wait milliseconds => simp [next, FamilyCancelled]

/-- A family is cancelled after some steps if it was before them, or if one of them calls `cancel`
on a token that belongs to the family at that time. -/
theorem familyCancelled_after_iff {family : Nat} {steps : List TokenStep} :
    (h.after steps).FamilyCancelled family ↔ h.FamilyCancelled family ∨
      ∃ before id rest o, steps = before ++ .cancel id :: rest ∧
        (h.after before).origins[id]? = some o ∧ o.family = family := by
  induction steps generalizing h with
  | nil => simp [after]
  | cons step steps ih =>
    show ((h.next step).after steps).FamilyCancelled family ↔ _
    rw [ih, familyCancelled_next_iff, or_assoc]
    refine or_congr_right ⟨?_, ?_⟩
    · rintro (⟨id, o, rfl, ho, hfamily⟩ | ⟨before, id, rest, o, rfl, ho, hfamily⟩)
      · exact ⟨[], id, steps, o, rfl, ho, hfamily⟩
      · exact ⟨step :: before, id, rest, o, rfl, ho, hfamily⟩
    · rintro ⟨before, id, rest, o, hsteps, ho, hfamily⟩
      cases before with
      | nil =>
        obtain ⟨rfl, rfl⟩ := List.cons.inj hsteps
        exact .inl ⟨id, o, rfl, ho, hfamily⟩
      | cons first before =>
        obtain ⟨rfl, rfl⟩ := List.cons.inj hsteps
        exact .inr ⟨before, id, rest, o, rfl, ho, hfamily⟩

theorem familyCancelled_iff {family : Nat} {steps : List TokenStep} :
    (empty.after steps).FamilyCancelled family ↔ ∃ before id rest o,
      steps = before ++ .cancel id :: rest ∧ (empty.after before).origins[id]? = some o ∧
        o.family = family := by
  refine familyCancelled_after_iff.trans (or_iff_right ?_)
  rintro ⟨o, ho, -⟩
  cases ho

end History

/-! ## Later tokens -/

namespace Tokens

variable {w w' w'' : Tokens} {id : Nat}

/-- What steps can only add to: all tokens are still there, all cancelled families still cancelled,
and the clock has not gone back. -/
structure Later (w w' : Tokens) : Prop where
  made : w.made <+: w'.made
  cancelled : w.families.cancelled ⊆ w'.families.cancelled
  now_le : w.now ≤ w'.now

theorem Later.refl (w : Tokens) : Later w w :=
  ⟨List.prefix_refl _, List.Subset.refl _, Nat.le_refl _⟩

theorem Later.trans (h : Later w w') (h' : Later w' w'') : Later w w'' :=
  ⟨h.made.trans h'.made, fun _ hf => h'.cancelled (h.cancelled hf), Nat.le_trans h.now_le h'.now_le⟩

theorem later_derive (w : Tokens) (id : Nat) (make : Token → Token) :
    Later w (w.derive id make) := by
  unfold derive
  cases w.made[id]? with
  | none => exact .refl w
  | some t => exact ⟨List.prefix_append _ _, List.Subset.refl _, Nat.le_refl _⟩

theorem later_next (w : Tokens) (step : TokenStep) : Later w (w.next step) := by
  cases step with
  | begin => exact ⟨List.prefix_append _ _, List.Subset.refl _, Nat.le_refl _⟩
  | clone id => exact later_derive w id _
  | withTimeout id milliseconds => exact later_derive w id _
  | start id => exact later_derive w id _
  | cancel id =>
    simp only [next]
    cases w.made[id]? with
    | none => exact .refl w
    | some t => exact ⟨List.prefix_refl _, List.subset_cons_self _ _, Nat.le_refl _⟩
  | ask id => exact .refl w
  | wait milliseconds => exact ⟨List.prefix_refl _, List.Subset.refl _, Nat.le_add_right _ _⟩

theorem later_after (w : Tokens) (steps : List TokenStep) : Later w (w.after steps) := by
  induction steps generalizing w with
  | nil => exact .refl w
  | cons step steps ih => exact (later_next w step).trans (ih (w.next step))

/-- What is cancelled at some time is cancelled at every later time. -/
theorem Later.isCancelled_families {t : Token} {now now' : Nat} (h : Later w w') (hnow : now ≤ now')
    (ht : w.families.isCancelled now t = true) : w'.families.isCancelled now' t = true := by
  rw [Families.isCancelled, Bool.or_eq_true, List.contains_iff_mem, Option.any_eq_true] at ht ⊢
  rcases ht with ht | ⟨d, hd, hle⟩
  · exact .inl (h.cancelled ht)
  · exact .inr ⟨d, hd, decide_eq_true (Nat.le_trans (of_decide_eq_true hle) hnow)⟩

theorem Later.getElem?_made {t : Token} (h : Later w w') (ht : w.made[id]? = some t) :
    w'.made[id]? = some t := by
  obtain ⟨more, hmore⟩ := h.made
  rw [← hmore, List.getElem?_append_left (List.getElem?_eq_some_iff.mp ht).1, ht]

theorem Later.isCancelled (h : Later w w') (hid : w.isCancelled id = true) :
    w'.isCancelled id = true := by
  obtain ⟨t, ht, hcancelled⟩ := (Option.any_eq_true _ _).mp hid
  rw [Tokens.isCancelled, h.getElem?_made ht]
  exact h.isCancelled_families h.now_le hcancelled

theorem derive_frame (w : Tokens) (id : Nat) (make : Token → Token) :
    (w.derive id make).families.cancelled = w.families.cancelled ∧
      (w.derive id make).now = w.now := by
  unfold derive
  cases w.made[id]? <;> exact ⟨rfl, rfl⟩

/-- Where neither `cancel` is called nor time passes, no token becomes cancelled. -/
theorem isCancelled_next {step : TokenStep} {t : Token} (ht : w.made[id]? = some t)
    (hcancel : ∀ id, step ≠ .cancel id) (hwait : ∀ milliseconds, step ≠ .wait milliseconds) :
    (w.next step).isCancelled id = w.isCancelled id := by
  have hframe : (w.next step).families.cancelled = w.families.cancelled ∧
      (w.next step).now = w.now := by
    cases step with
    | begin => exact ⟨rfl, rfl⟩
    | clone id => exact derive_frame w id _
    | withTimeout id milliseconds => exact derive_frame w id _
    | start id => exact derive_frame w id _
    | cancel id => exact absurd rfl (hcancel id)
    | ask id => exact ⟨rfl, rfl⟩
    | wait milliseconds => exact absurd rfl (hwait milliseconds)
  rw [Tokens.isCancelled, Tokens.isCancelled, (later_next w step).getElem?_made ht, ht]
  simp only [Option.any_some, Families.isCancelled, hframe]

end Tokens

end TraceRecovery
