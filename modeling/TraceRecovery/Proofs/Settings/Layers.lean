import TraceRecovery.Proofs.Settings.Changes
import TraceRecovery.Settings.Document

/-!
# Layers of settings

Settings are resolved from a document, from overrides made in turn (`Settings.Overridden`) and from
a threshold. The values of the last two layers have to be in range only in the end
(`Settings.layered_eq_ok_iff`), so an override that sets what a later layer sets again can as well
be left out (`Settings.layered_of_replaced`). The values of a document have to be in range before
anything is put over them.
-/

namespace TraceRecovery

namespace Settings

variable {s t base : Settings} {overrides before after : List String} {text : String}
  {document : Option String} {threshold : Option Float} {k : SettingKey}

/-! ## Overrides in turn -/

/-- Some overrides can be made in turn and lead from settings to others. -/
inductive Overridden : Settings → List String → Settings → Prop
  | nil (s : Settings) : Overridden s [] s
  | cons {s mid top : Settings} {text : String} {overrides : List String} :
    s.override text = .ok mid → Overridden mid overrides top → Overridden s (text :: overrides) top

/-- The settings with a threshold put over them. -/
def topped (s : Settings) (threshold : Option Float) : Settings :=
  { s with threshold := threshold.getD s.threshold }

theorem layered_nil (s : Settings) (threshold : Option Float) :
    layered s [] threshold = (s.topped threshold).validate.map fun _ => s.topped threshold := by
  show (s.topped threshold).validate >>= _ = _
  cases (s.topped threshold).validate <;> rfl

theorem layered_cons (s : Settings) (text : String) (overrides : List String)
    (threshold : Option Float) :
    layered s (text :: overrides) threshold =
      s.override text >>= fun mid => layered mid overrides threshold := by
  unfold layered overrideAll
  rw [changeAll]
  cases s.override text <;> rfl

/-- Overrides and a threshold are accepted exactly if every override can be made in turn and what
comes out of all layers is in range. -/
theorem layered_eq_ok_iff : layered base overrides threshold = .ok s ↔
    ∃ top, Overridden base overrides top ∧ s = top.topped threshold ∧ s.validate = .ok () := by
  induction overrides generalizing base with
  | nil =>
    rw [layered_nil]
    constructor
    · intro h
      cases hvalid : (base.topped threshold).validate with
      | error e => rw [hvalid] at h; cases h
      | ok u =>
        rw [hvalid] at h
        obtain rfl := Except.ok.inj h
        exact ⟨base, .nil base, rfl, hvalid⟩
    · rintro ⟨top, hover, rfl, hvalid⟩
      cases hover
      rw [hvalid]
      rfl
  | cons text overrides ih =>
    rw [layered_cons, Fallible.bind_eq_ok_iff]
    constructor
    · rintro ⟨mid, hmid, h⟩
      obtain ⟨top, hover, hs⟩ := ih.mp h
      exact ⟨top, .cons hmid hover, hs⟩
    · rintro ⟨top, hover, hs⟩
      cases hover with
      | cons hmid hover => exact ⟨_, hmid, ih.mpr ⟨top, hover, hs⟩⟩

/-! ## Replaced values -/

/-- A layer behind the overrides so far sets a key again: one of the overrides to come, or the
threshold. -/
def Replaced (k : SettingKey) (after : List String) (threshold : Option Float) : Prop :=
  (∃ text ∈ after, Sets text k) ∨ k = .threshold ∧ threshold.isSome = true

/-- Settings that differ only in what is set again lead to the same outcome. -/
theorem layered_congr (h : AgreeOutside k s t) (hreplaced : Replaced k overrides threshold) :
    layered s overrides threshold = layered t overrides threshold := by
  induction overrides generalizing s t with
  | nil =>
    obtain ⟨_, hmem, -⟩ | ⟨rfl, hsome⟩ := hreplaced
    · cases hmem
    · obtain ⟨x, rfl⟩ := Option.isSome_iff_exists.mp hsome
      have htopped : s.topped (some x) = t.topped (some x) := h (.threshold x) rfl
      rw [layered_nil, layered_nil, htopped]
  | cons text overrides ih =>
    rw [layered_cons, layered_cons, override_eq, override_eq]
    cases hchange : Change.ofOverride text with
    | error e => rfl
    | ok change =>
      cases change with
      | none =>
        refine ih h (hreplaced.imp_left ?_)
        rintro ⟨later, hmem, c, hc, hkey⟩
        rcases List.mem_cons.mp hmem with rfl | hmem
        · rw [hchange] at hc
          cases hc
        · exact ⟨later, hmem, c, hc, hkey⟩
      | some c =>
        show layered (c.applyTo s) overrides threshold = layered (c.applyTo t) overrides threshold
        by_cases hck : c.key = k
        · rw [h c hck]
        · refine ih (h.applyTo c) (hreplaced.imp_left ?_)
          rintro ⟨later, hmem, d, hd, hkey⟩
          rcases List.mem_cons.mp hmem with rfl | hmem
          · rw [hchange] at hd
            obtain rfl := Option.some.inj (Except.ok.inj hd)
            exact absurd hkey hck
          · exact ⟨later, hmem, d, hd, hkey⟩

/-- An override whose setting is set again has no influence. -/
theorem layered_of_replaced (hsets : Sets text k) (hreplaced : Replaced k after threshold)
    (base : Settings) (before : List String) :
    layered base (before ++ text :: after) threshold =
      layered base (before ++ after) threshold := by
  induction before generalizing base with
  | nil =>
    obtain ⟨c, hc, hkey⟩ := hsets
    rw [List.nil_append, List.nil_append, layered_cons, override_eq, hc]
    exact layered_congr (agreeOutside_applyTo hkey base) hreplaced
  | cons first before ih =>
    rw [List.cons_append, List.cons_append, layered_cons, layered_cons]
    exact congrArg _ (funext ih)

/-! ## Documents -/

/-- Settings are read from a document, or are the default ones if there is none. They need not be
in range. -/
def Base (document : Option String) (base : Settings) : Prop :=
  match document with
  | some text => read text = .ok base
  | none => base = default

theorem ofText_eq_ok_iff : ofText text = .ok s ↔ read text = .ok s ∧ s.validate = .ok () := by
  unfold ofText
  rw [Fallible.bind_eq_ok_iff]
  constructor
  · rintro ⟨base, hread, h⟩
    obtain ⟨u, hvalid, h⟩ := Fallible.bind_eq_ok_iff.mp h
    obtain rfl := Except.ok.inj h
    exact ⟨hread, hvalid⟩
  · rintro ⟨hread, hvalid⟩
    exact ⟨s, hread, Fallible.bind_eq_ok_iff.mpr ⟨(), hvalid, rfl⟩⟩

/-- Layers yield settings exactly if the document can be read and is in range on its own, every
override can be made in turn, and the settings that come out of all layers are in range. Without a
document only these last ones have to be in range. In particular an override that sets what another
override or the threshold sets again never decides the outcome. -/
theorem layers_validated_behind_document (document : Option String) (threshold : Option Float) :
    (∀ overrides s, ofLayers document overrides threshold = .ok s ↔
      ∃ base top, Base document base ∧ (document.isSome = true → base.validate = .ok ()) ∧
        Overridden base overrides top ∧ s = top.topped threshold ∧ s.validate = .ok ()) ∧
    ∀ before text after k, Sets text k → Replaced k after threshold →
      ofLayers document (before ++ text :: after) threshold =
        ofLayers document (before ++ after) threshold := by
  constructor
  · intro overrides s
    cases document with
    | none =>
      show layered default overrides threshold = .ok s ↔ _
      rw [layered_eq_ok_iff]
      constructor
      · rintro ⟨top, h⟩
        exact ⟨default, top, rfl, nofun, h⟩
      · rintro ⟨base, top, rfl, -, h⟩
        exact ⟨top, h⟩
    | some text =>
      show ofText text >>= (fun base => layered base overrides threshold) = .ok s ↔ _
      simp only [Fallible.bind_eq_ok_iff, ofText_eq_ok_iff, layered_eq_ok_iff]
      constructor
      · rintro ⟨base, ⟨hread, hvalid⟩, top, h⟩
        exact ⟨base, top, hread, fun _ => hvalid, h⟩
      · rintro ⟨base, top, hread, hvalid, h⟩
        exact ⟨base, ⟨hread, hvalid rfl⟩, top, h⟩
  · intro before text after k hsets hreplaced
    have hlayered := fun base => layered_of_replaced hsets hreplaced base before
    cases document with
    | none => exact hlayered default
    | some document => exact congrArg (ofText document >>= ·) (funext hlayered)

/-- A threshold of 7 among the overrides makes no difference where a later override or the threshold
sets it again, and the layers then yield settings. -/
theorem layers_validated_behind_document_of_replaced :
    let document := some "threshold: 0.25\n"
    let seven := "TraceLinkExporter::threshold=7"
    let later := "TraceLinkExporter::threshold=0.8"
    ofLayers document [seven, later] none = ofLayers document [later] none ∧
      ofLayers document [seven] (some 0.5) = ofLayers document [] (some 0.5) ∧
      ∃ base, Base document base ∧
        ofLayers document [seven] (some 0.5) = .ok (base.topped (some 0.5)) := by
  intro document seven later
  obtain ⟨base, hread, h⟩ := Fallible.exists_of_any_toOption (x := read "threshold: 0.25\n")
    (p := fun base => base.validate.isOk && (base.topped (some 0.5)).validate.isOk)
    (by decide +kernel)
  obtain ⟨hvalid, htopped⟩ := Bool.and_eq_true_iff.mp h
  have hseven : Sets seven .threshold := by decide +kernel
  have hlater : Sets later .threshold := by decide +kernel
  have hyields : ofLayers document [] (some 0.5) = .ok (base.topped (some 0.5)) :=
    ((layers_validated_behind_document document (some 0.5)).1 [] _).mpr
      ⟨base, base, hread, fun _ => Fallible.eq_ok_of_isOk hvalid, .nil base, rfl,
        Fallible.eq_ok_of_isOk htopped⟩
  have hreplaced : ofLayers document [seven] (some 0.5) = ofLayers document [] (some 0.5) :=
    (layers_validated_behind_document document (some 0.5)).2 [] seven [] .threshold hseven
      (.inr ⟨rfl, rfl⟩)
  exact ⟨(layers_validated_behind_document document none).2 [] seven [later] .threshold hseven
      (.inl ⟨later, List.mem_cons_self, hlater⟩),
    hreplaced, base, hread, hreplaced.trans hyields⟩

/-- A document with a threshold of 7 is refused, although a threshold of a half is put over it and
the settings that would come out are in range. -/
theorem replaced_threshold_of_document_refused :
    ∃ base, Base (some "threshold: 7\n") base ∧ (base.threshold == 7) = true ∧
      (base.topped (some 0.5)).validate = .ok () ∧
      ofLayers (some "threshold: 7\n") [] (some 0.5) =
        .error (.setting (.thresholdOutOfRange base.threshold)) := by
  obtain ⟨base, hread, h⟩ := Fallible.exists_of_any_toOption (x := read "threshold: 7\n")
    (p := fun base => base.threshold == 7 && !decide (0 ≤ base.threshold ∧ base.threshold ≤ 1) &&
      (base.topped (some 0.5)).validate.isOk)
    (by decide +kernel)
  simp only [Bool.and_eq_true, Bool.not_eq_true', decide_eq_false_iff_not] at h
  obtain ⟨⟨hseven, hrange⟩, hvalid⟩ := h
  have hrefused : base.validate = .error (.setting (.thresholdOutOfRange base.threshold)) :=
    if_pos hrange
  refine ⟨base, hread, hseven, Fallible.eq_ok_of_isOk hvalid, ?_⟩
  show ofText _ >>= _ = _
  rw [ofText, hread]
  show (base.validate >>= _) >>= _ = _
  rw [hrefused]
  rfl

end Settings

end TraceRecovery
