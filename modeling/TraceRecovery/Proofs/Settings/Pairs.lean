import TraceRecovery.Proofs.Settings.Overrides
import TraceRecovery.Settings.Document

/-!
# Pairs and overrides

The default settings are changed by keys with values, which are given as pairs or as the texts of
overrides. Whichever way they are given, the same settings come out, or the same error
(`Settings.pairs_agree_with_overrides`).

The text of an override is cut at its first equals sign and its key is trimmed, so a pair is read
back from its text if its key has no equals sign and no white space around it; the value may be any
text (`Change.splitOverride_overrideText`). From then on both ways make the same changes. Their
outcome is decided by the first change that cannot be made (`Settings.fault_changeAll_eq_some_iff`),
or else by the range of the settings after all of them (`Changed.checked`).
-/

namespace TraceRecovery

variable {s : Settings} {p : String × String} {pairs : List (String × String)}
  {texts : List String} {e : TraceError}

namespace Change

/-- The text of the override with a key and a value. -/
def overrideText (p : String × String) : String := p.1 ++ "=" ++ p.2

/-- The first equals sign is the one behind the key, however many there are in the value. -/
theorem splitOverride_overrideText (hsep : '=' ∉ p.1.toList) (htrim : Text.Trimmed p.1) :
    splitOverride (overrideText p) = .ok p := by
  have hchars : (overrideText p).toList = p.1.toList ++ '=' :: p.2.toList := by
    simp [overrideText]
  have hkey : Text.trimChars p.1.toList = p.1.toList :=
    Text.trimChars_of_no_blank_ends htrim.1 htrim.2
  rw [splitOverride, hchars, Text.cutOnce_append hsep]
  simp only [hkey, String.ofList_toList]

theorem mapM_splitOverride (h : ∀ p ∈ pairs, '=' ∉ p.1.toList ∧ Text.Trimmed p.1) :
    (pairs.map overrideText).mapM splitOverride = .ok pairs := by
  rw [Fallible.mapM_eq_ok_iff, List.forall₂_map_left_iff, List.forall₂_same]
  exact fun p hp => splitOverride_overrideText (h p hp).1 (h p hp).2

end Change

/-! ## Outcomes of changes -/

/-- The settings that changes have led to, if all of them could be made and the settings are in
range. -/
def Changed.checked (c : Changed) : Except TraceError Settings :=
  match c.fault with
  | some e => .error e
  | none => c.settings.validate.map fun _ => c.settings

theorem Changed.checked_eq_ok_iff {c : Changed} :
    c.checked = .ok s ↔ c.fault = none ∧ s = c.settings ∧ s.validate = .ok () := by
  unfold checked
  cases c.fault with
  | some e => simp
  | none =>
    cases hvalid : c.settings.validate with
    | error e =>
      simp only [Except.map, reduceCtorEq, true_and, false_iff, not_and]
      rintro rfl
      simp [hvalid]
    | ok u =>
      simp only [Except.map, Except.ok.injEq, true_and]
      constructor
      · rintro rfl
        exact ⟨rfl, hvalid⟩
      · exact fun h => h.1.symm

theorem Changed.checked_eq_error_iff {c : Changed} :
    c.checked = .error e ↔
      c.fault = some e ∨ c.fault = none ∧ c.settings.validate = .error e := by
  unfold checked
  cases c.fault with
  | some e' => simp
  | none => cases c.settings.validate <;> simp [Except.map]

namespace Settings

/-- Changes in turn stop at the first that cannot be made to the settings before it. -/
theorem fault_changeAll_eq_some_iff {α : Type} {change : Settings → α → Except TraceError Settings}
    {xs : List α} : (changeAll change s xs).fault = some e ↔
      ∃ before x after, xs = before ++ x :: after ∧ (changeAll change s before).fault = none ∧
        change (changeAll change s before).settings x = .error e := by
  induction xs generalizing s with
  | nil => simp [changeAll]
  | cons x xs ih =>
    constructor
    · intro h
      cases hx : change s x with
      | error e' =>
        rw [changeAll, hx] at h
        obtain rfl := Option.some.inj h
        exact ⟨[], x, xs, rfl, rfl, hx⟩
      | ok next =>
        rw [changeAll, hx] at h
        obtain ⟨before, y, after, rfl, hbefore, hy⟩ := ih.mp h
        refine ⟨x :: before, y, after, rfl, ?_, ?_⟩
        · exact fault_changeAll_cons.mpr ⟨next, hx, hbefore⟩
        · rwa [changeAll, hx]
    · rintro ⟨before, y, after, hxs, hbefore, hy⟩
      cases before with
      | nil =>
        obtain ⟨rfl, rfl⟩ := List.cons.inj hxs
        have hy : change s x = .error e := hy
        rw [changeAll, hy]
      | cons z before =>
        obtain ⟨rfl, rfl⟩ := List.cons.inj hxs
        obtain ⟨next, hx, hbefore⟩ := fault_changeAll_cons.mp hbefore
        rw [changeAll, hx] at hy ⊢
        exact ih.mpr ⟨before, y, after, rfl, hbefore, hy⟩

theorem ofPairs_eq_checked (pairs : List (String × String)) :
    ofPairs pairs = (default.applyAll pairs).checked := by
  unfold ofPairs Changed.checked
  generalize hall : changeAll _ default pairs = c
  have hpairs : default.applyAll pairs = c := hall
  rw [hpairs]
  rcases c with ⟨s, _ | e⟩
  · show s.validate >>= _ = _
    cases s.validate <;> rfl
  · rfl

theorem ofLayers_eq_checked (texts : List String) :
    ofLayers none texts none = (default.overrideAll texts).checked := by
  show layered default texts none = _
  unfold layered Changed.checked
  rcases default.overrideAll texts with ⟨s, _ | e⟩
  · show s.validate >>= _ = _
    cases s.validate <;> rfl
  · rfl

/-- Keys with arbitrary values lead to the same outcome as pairs and as overrides, if the keys have
no equals sign and no white space around them: to equal settings or to the same error. Along the way
they change any settings alike. The outcome is the first refusal of a value, or else what the check
of the settings after all changes says. -/
theorem pairs_agree_with_overrides (pairs : List (String × String))
    (h : ∀ p ∈ pairs, '=' ∉ p.1.toList ∧ Text.Trimmed p.1) :
    ofLayers none (pairs.map Change.overrideText) none = ofPairs pairs ∧
      (∀ s : Settings, s.overrideAll (pairs.map Change.overrideText) = s.applyAll pairs) ∧
      (∀ s, ofPairs pairs = .ok s ↔ (default.applyAll pairs).fault = none ∧
        s = (default.applyAll pairs).settings ∧ s.validate = .ok ()) ∧
      ∀ e, ofPairs pairs = .error e ↔
        (∃ before p after, pairs = before ++ p :: after ∧
          (default.applyAll before).fault = none ∧
          (default.applyAll before).settings.apply p.1 p.2 = .error e) ∨
        (default.applyAll pairs).fault = none ∧
          (default.applyAll pairs).settings.validate = .error e := by
  have hall := overrideAll_eq_applyAll (Change.mapM_splitOverride h)
  refine ⟨?_, hall, fun s => ?_, fun e => ?_⟩
  · rw [ofLayers_eq_checked, hall, ofPairs_eq_checked]
  · rw [ofPairs_eq_checked]
    exact Changed.checked_eq_ok_iff
  · rw [ofPairs_eq_checked, Changed.checked_eq_error_iff]
    exact or_congr_left fault_changeAll_eq_some_iff

/-- Values with equals signs and white space, the second of which is no number. -/
theorem pairs_agree_with_overrides_of_separators :
    let pairs := [("Unknown::key", " a=b "), ("TraceLinkExporter::threshold", " =0.8")]
    (∀ p ∈ pairs, '=' ∉ p.1.toList ∧ Text.Trimmed p.1) ∧
      ofLayers none ["Unknown::key= a=b ", "TraceLinkExporter::threshold= =0.8"] none =
        ofPairs pairs ∧
      ofPairs pairs =
        .error (.setting (.notANumber "TraceLinkExporter::threshold" "=0.8")) := by
  intro pairs
  have hkeys : ∀ p ∈ pairs, '=' ∉ p.1.toList ∧ Text.Trimmed p.1 := by decide
  exact ⟨hkeys, (pairs_agree_with_overrides pairs hkeys).1, by rfl⟩

end Settings

end TraceRecovery
