import TraceRecovery.Proofs.Settings.Changes

/-!
# The last override of a key decides

A key with a value is refused or applied whatever the settings are (`Settings.apply_cases`). In
place, what is refused leaves the settings as they were (`Settings.run_applying`). What is applied
writes the one setting that its key names (`Settings.value_make`). So each setting that comes out of
a list of keys and values is the one that was written last, or the one that was there before
(`Settings.value_applyAll`), and nothing but the order of values for the same key matters.

Settings are compared one by one: `Settings.value` is a setting, given as the change that sets it.
-/

namespace TraceRecovery

theorem SettingKey.ofName?_eq_some_iff {text : String} {k : SettingKey} :
    ofName? text = some k ↔ text = k.name := by
  constructor
  · intro h
    unfold ofName? at h
    split at h <;> cases h <;> rfl
  · rintro rfl
    exact ofName?_name k

/-- An error that is about a setting. -/
def TraceError.IsSettingFault (e : TraceError) : Prop := ∃ fault, e = .setting fault

theorem Parallelism.ofText_eq_error {text : String} {e : TraceError} (h : ofText text = .error e) :
    e.IsSettingFault := by
  unfold ofText at h
  dsimp only at h
  split at h
  · cases h
  · exact ⟨_, (Except.error.inj h).symm⟩

namespace Change

variable {key : SettingKey} {text : String} {e : TraceError} {c : Change}

theorem number_eq_error (h : number key text = .error e) : e.IsSettingFault := by
  unfold number at h
  split at h
  · cases h
  · exact ⟨_, (Except.error.inj h).symm⟩

/-- A result changes the setting of a key, and an error is about a setting. -/
structure Concerns (key : SettingKey) (x : Except TraceError Change) : Prop where
  key_eq : ∀ c, x = .ok c → c.key = key
  isSettingFault : ∀ e, x = .error e → e.IsSettingFault

theorem concerns_ok (h : c.key = key) : Concerns key (.ok c) :=
  ⟨fun _ hc => Except.ok.inj hc ▸ h, nofun⟩

theorem concerns_fault (fault : SettingFault) : Concerns key (.error (.setting fault)) :=
  ⟨nofun, fun _ he => ⟨fault, (Except.error.inj he).symm⟩⟩

theorem concerns_bind {α : Type} {x : Except TraceError α} {f : α → Change}
    (hx : ∀ e, x = .error e → e.IsSettingFault) (hf : ∀ a, (f a).key = key) :
    Concerns key (x >>= fun a => .ok (f a)) := by
  cases x with
  | error e => exact ⟨nofun, fun _ he => Except.error.inj he ▸ hx e rfl⟩
  | ok a => exact concerns_ok (hf a)

/-- A value describes a change of the setting of its key, or else a fault of it is reported. -/
theorem concerns_ofValue (key : SettingKey) (text : String) : Concerns key (ofValue key text) := by
  cases key with
  | threshold => exact concerns_bind (fun _ => number_eq_error) fun _ => rfl
  | preprocessing =>
    unfold ofValue
    dsimp only
    split
    · exact concerns_ok rfl
    · exact concerns_fault _
  | stopWords => exact concerns_ok rfl
  | commonWords => exact concerns_ok rfl
  | weights =>
    refine concerns_bind (fun e he => ?_) fun _ => rfl
    obtain ⟨_, -, hnumber⟩ := Fallible.exists_of_mapM_eq_error he
    exact number_eq_error hnumber
  | parallelism => exact concerns_bind (fun _ => Parallelism.ofText_eq_error) fun _ => rfl
  | deadline =>
    unfold ofValue
    dsimp only
    split
    · exact concerns_ok rfl
    · split
      · exact concerns_ok rfl
      · exact concerns_fault _

/-- A key with a value is refused for a fault of a setting, or it describes a change of the setting
that the key names, if it names one. -/
theorem ofPair_cases (key text : String) :
    (∃ fault, ofPair key text = .error (.setting fault)) ∨
    ∃ change, ofPair key text = .ok change ∧ change.map Change.key = SettingKey.ofName? key := by
  rw [ofPair]
  cases SettingKey.ofName? key with
  | none => exact .inr ⟨none, rfl, rfl⟩
  | some k =>
    have hvalue := concerns_ofValue k (Text.trim text)
    cases h : ofValue k (Text.trim text) with
    | error e =>
      obtain ⟨fault, rfl⟩ := hvalue.isSettingFault e h
      exact .inl ⟨fault, congrArg (· >>= fun c => pure (some c)) h⟩
    | ok c =>
      refine .inr ⟨some c, congrArg (· >>= fun c => pure (some c)) h, ?_⟩
      exact congrArg some (hvalue.key_eq c h)

end Change

namespace Settings

variable {s t : Settings} {k : SettingKey} {key text : String} {change : Option Change}
  {p : String × String} {pairs pairs' : List (String × String)} {texts : List String}

/-! ## Settings one by one -/

/-- The setting of a key, as the change that sets it. -/
def value (s : Settings) : SettingKey → Change
  | .threshold => .threshold s.threshold
  | .preprocessing => .preprocessing s.preprocessing
  | .stopWords => .stopWords s.stopWords
  | .commonWords => .commonWords s.commonWords
  | .weights => .weights s.weights
  | .parallelism => .parallelism s.parallelism
  | .deadline => .deadline s.deadline

theorem ext_value (h : ∀ k, s.value k = t.value k) : s = t := by
  cases s
  cases t
  simp only [mk.injEq]
  exact ⟨Change.threshold.inj (h .threshold), Change.preprocessing.inj (h .preprocessing),
    Change.stopWords.inj (h .stopWords), Change.commonWords.inj (h .commonWords),
    Change.weights.inj (h .weights), Change.parallelism.inj (h .parallelism),
    Change.deadline.inj (h .deadline)⟩

/-- A change touches the setting of its key only. -/
theorem value_applyTo (c : Change) (s : Settings) (k : SettingKey) :
    (c.applyTo s).value k = if c.key = k then c else s.value k := by
  cases c <;> cases k <;> rfl

/-! ## Single keys and values -/

/-- Makes a change, if there is one. -/
def make (change : Option Change) (s : Settings) : Settings := change.elim s fun c => c.applyTo s

theorem apply_eq_map (s : Settings) (key text : String) :
    s.apply key text = (Change.ofPair key text).map (make · s) := by
  unfold apply
  rcases Change.ofPair key text with e | _ | c <;> rfl

theorem apply_eq_ok (h : Change.ofPair key text = .ok change) (s : Settings) :
    s.apply key text = .ok (make change s) := by
  rw [apply_eq_map, h]
  rfl

/-- The change that a key and a value describe, if it is one of a given setting. -/
def written? (k : SettingKey) (p : String × String) : Option Change :=
  (Change.ofPair p.1 p.2).toOption.join.filter fun c => decide (c.key = k)

theorem written?_of_ne (h : p.1 ≠ k.name) : written? k p = none := by
  unfold written?
  obtain ⟨fault, hp⟩ | ⟨_ | c, hp, hkey⟩ := Change.ofPair_cases p.1 p.2
  · rw [hp]; rfl
  · rw [hp]; rfl
  · have hne : c.key ≠ k := by
      rintro rfl
      exact h (SettingKey.ofName?_eq_some_iff.mp hkey.symm)
    simp [hp, Except.toOption, hne]

/-- A value that is accepted for a key is a change of its setting. -/
theorem exists_written?_eq_some (hname : p.1 = k.name)
    (h : Change.ofPair p.1 p.2 = .ok change) : ∃ c, written? k p = some c := by
  obtain ⟨fault, hp⟩ | ⟨_, hp, hkey⟩ := Change.ofPair_cases p.1 p.2
  · rw [hp] at h; cases h
  · rw [SettingKey.ofName?_eq_some_iff.mpr hname] at hkey
    obtain ⟨c, rfl, rfl⟩ := Option.map_eq_some_iff.mp hkey
    exact ⟨c, by simp [written?, hp, Except.toOption]⟩

/-- After a key and a value are applied, a setting is the one that they write, or else the one that
was there before. -/
theorem value_make (h : Change.ofPair p.1 p.2 = .ok change) (s : Settings) (k : SettingKey) :
    (make change s).value k = (written? k p).getD (s.value k) := by
  rw [written?, h]
  cases change with
  | none => rfl
  | some c =>
    show (c.applyTo s).value k = ((some c).filter _).getD _
    rw [value_applyTo, Option.filter_some]
    by_cases hkey : c.key = k <;> simp [hkey]

/-! ## Changes in place -/

/-- A step on settings: its answer, and the settings that it leaves behind. -/
abbrev Update := ExceptT TraceError (StateM Settings)

/-- Applies a key and a value in place. -/
def applying (key text : String) : Update Unit := do
  match ← Change.ofPair key text with
  | none => return ()
  | some c => modify c.applyTo

/-- Makes an override in place. -/
def overriding (text : String) : Update Unit := do
  let (key, value) ← Change.splitOverride text
  applying key value

/-- A step that is refused leaves the settings as they were. -/
theorem run_applying (s : Settings) (key text : String) :
    (applying key text).run.run s = match s.apply key text with
      | .ok t => (.ok (), t)
      | .error e => (.error e, s) := by
  unfold applying apply
  rcases Change.ofPair key text with e | _ | c <;> rfl

theorem run_overriding (s : Settings) (text : String) :
    (overriding text).run.run s = match s.override text with
      | .ok t => (.ok (), t)
      | .error e => (.error e, s) := by
  unfold overriding override
  cases Change.splitOverride text with
  | error e => rfl
  | ok pair => exact run_applying s pair.1 pair.2

/-- Overrides in turn in place leave the settings behind that `overrideAll` reports. -/
theorem run_forM_overriding (s : Settings) (texts : List String) :
    (texts.forM overriding).run.run s =
      ((s.overrideAll texts).fault.elim (.ok ()) .error, (s.overrideAll texts).settings) := by
  induction texts generalizing s with
  | nil => rfl
  | cons text texts ih =>
    show (overriding text >>= fun _ => texts.forM overriding : Update Unit).run.run s = _
    rw [ExceptT.run_bind, StateT.run_bind, run_overriding, overrideAll, changeAll]
    cases s.override text with
    | error e => rfl
    | ok next => exact ih next

/-- A key with a value is refused whatever the settings are, or it is applied to all settings. Then
it leaves all settings alone but the one that the key names, and what that one becomes does not
depend on the settings. -/
theorem apply_cases (key text : String) :
    (∃ fault, ∀ s : Settings, s.apply key text = .error (.setting fault)) ∨
    ∃ write : Settings → Settings, ∀ s, s.apply key text = .ok (write s) ∧
      ∀ k : SettingKey, (key ≠ k.name → (write s).value k = s.value k) ∧
        (key = k.name → ∀ t, (write s).value k = (write t).value k) := by
  obtain ⟨fault, h⟩ | ⟨change, h, -⟩ := Change.ofPair_cases key text
  · exact .inl ⟨fault, fun s => by rw [apply_eq_map, h]; rfl⟩
  · refine .inr ⟨make change, fun s => ⟨apply_eq_ok h s, fun k => ⟨?_, ?_⟩⟩⟩
    · intro hne
      rw [value_make (p := (key, text)) h, written?_of_ne hne]
      rfl
    · intro hname t
      obtain ⟨c, hc⟩ := exists_written?_eq_some (p := (key, text)) hname h
      rw [value_make (p := (key, text)) h, value_make (p := (key, text)) h, hc]
      rfl

/-! ## Keys and values in turn -/

theorem fault_changeAll_cons {α : Type} {change : Settings → α → Except TraceError Settings}
    {x : α} {xs : List α} : (changeAll change s (x :: xs)).fault = none ↔
      ∃ next, change s x = .ok next ∧ (changeAll change next xs).fault = none := by
  rw [changeAll]
  cases change s x <;> simp

/-- The settings after keys with values in turn, as `ofPairs` makes them of the default settings. -/
def applyAll (s : Settings) (pairs : List (String × String)) : Changed :=
  changeAll (fun s (key, value) => s.apply key value) s pairs

theorem applyAll_cons (h : Change.ofPair p.1 p.2 = .ok change) (s : Settings)
    (pairs : List (String × String)) :
    s.applyAll (p :: pairs) = (make change s).applyAll pairs := by
  unfold applyAll
  rw [changeAll]
  dsimp only
  rw [apply_eq_ok h]

/-- Whether keys and values can all be applied does not depend on the settings. -/
theorem fault_applyAll_eq_none_iff : (s.applyAll pairs).fault = none ↔
    ∀ p ∈ pairs, ∃ change, Change.ofPair p.1 p.2 = .ok change := by
  induction pairs generalizing s with
  | nil => exact ⟨fun _ => nofun, fun _ => rfl⟩
  | cons p pairs ih =>
    rw [List.forall_mem_cons]
    cases h : Change.ofPair p.1 p.2 with
    | error e => simp [applyAll, fault_changeAll_cons, apply_eq_map, h, Except.map]
    | ok change => simp [applyAll_cons h, ih]

/-- Each setting is the one that was written last, or else the one that was there before. -/
theorem value_applyAll (h : (s.applyAll pairs).fault = none) (k : SettingKey) :
    (s.applyAll pairs).settings.value k =
      (pairs.filterMap (written? k)).getLast?.getD (s.value k) := by
  rw [fault_applyAll_eq_none_iff] at h
  induction pairs generalizing s with
  | nil => rfl
  | cons p pairs ih =>
    obtain ⟨⟨change, hp⟩, h⟩ := List.forall_mem_cons.mp h
    rw [applyAll_cons hp, ih h, value_make hp, List.filterMap_cons]
    cases written? k p with
    | none => rfl
    | some c => simp [List.getLast?_cons]

/-- What is written to a setting is written under its key. -/
theorem filterMap_written? (k : SettingKey) (pairs : List (String × String)) :
    (pairs.filter fun p => p.1 = k.name).filterMap (written? k) =
      pairs.filterMap (written? k) := by
  rw [List.filterMap_filter]
  refine List.filterMap_congr fun p _ => ?_
  by_cases hkey : p.1 = k.name
  · simp [hkey]
  · simp [hkey, written?_of_ne hkey]

theorem filterMap_written?_of_ne (h : ∀ p ∈ pairs, p.1 ≠ k.name) :
    pairs.filterMap (written? k) = [] :=
  List.filterMap_eq_nil_iff.mpr fun p hp => written?_of_ne (h p hp)

theorem value_applyAll_of_ne (h : (s.applyAll pairs).fault = none)
    (hne : ∀ p ∈ pairs, p.1 ≠ k.name) : (s.applyAll pairs).settings.value k = s.value k := by
  rw [value_applyAll h, filterMap_written?_of_ne hne]
  rfl

/-- The last value for a key decides, whatever comes before it and whatever the settings were. -/
theorem value_applyAll_of_last {before after : List (String × String)}
    (h : (s.applyAll (before ++ (k.name, text) :: after)).fault = none)
    (hlast : ∀ p ∈ after, p.1 ≠ k.name) (t : Settings) :
    ∃ t', t.apply k.name text = .ok t' ∧
      (s.applyAll (before ++ (k.name, text) :: after)).settings.value k = t'.value k := by
  obtain ⟨change, hp⟩ := fault_applyAll_eq_none_iff.mp h (k.name, text) (by simp)
  obtain ⟨c, hc⟩ := exists_written?_eq_some rfl hp
  refine ⟨make change t, apply_eq_ok hp t, ?_⟩
  rw [value_applyAll h, value_make hp, hc, List.filterMap_append, List.filterMap_cons_some hc,
    filterMap_written?_of_ne hlast, List.getLast?_concat]
  rfl

theorem applyAll_ext (h : (s.applyAll pairs).fault = none) (h' : (t.applyAll pairs').fault = none)
    (hvalue : ∀ k, (s.applyAll pairs).settings.value k = (t.applyAll pairs').settings.value k) :
    s.applyAll pairs = t.applyAll pairs' := by
  have hsettings := ext_value hvalue
  cases hs : s.applyAll pairs
  cases ht : t.applyAll pairs'
  simp_all

/-- Keys and values can be reordered as long as values for the same key keep their order. -/
theorem applyAll_of_filter_eq (h : (s.applyAll pairs).fault = none)
    (hfilter : ∀ key, pairs'.filter (fun p => p.1 = key) = pairs.filter fun p => p.1 = key) :
    s.applyAll pairs' = s.applyAll pairs := by
  have hmem : ∀ p ∈ pairs', p ∈ pairs := by
    intro p hp
    have hkey : p ∈ pairs'.filter fun q => q.1 = p.1 := List.mem_filter.mpr ⟨hp, by simp⟩
    rw [hfilter] at hkey
    exact (List.mem_filter.mp hkey).1
  have h' : (s.applyAll pairs').fault = none :=
    fault_applyAll_eq_none_iff.mpr fun p hp => fault_applyAll_eq_none_iff.mp h p (hmem p hp)
  refine applyAll_ext h' h fun k => ?_
  rw [value_applyAll h', value_applyAll h, ← filterMap_written? k pairs', hfilter,
    filterMap_written?]

theorem applyAll_applyAll (h : (s.applyAll pairs).fault = none) :
    (s.applyAll pairs).settings.applyAll pairs = s.applyAll pairs := by
  have hagain : ((s.applyAll pairs).settings.applyAll pairs).fault = none :=
    fault_applyAll_eq_none_iff.mpr (fault_applyAll_eq_none_iff.mp h)
  refine applyAll_ext hagain h fun k => ?_
  rw [value_applyAll hagain, value_applyAll h]
  cases (pairs.filterMap (written? k)).getLast? <;> rfl

/-! ## Overrides in turn -/

/-- Overrides with keys and values that can be told apart are these keys and values in turn. -/
theorem overrideAll_eq_applyAll (h : texts.mapM Change.splitOverride = .ok pairs) (s : Settings) :
    s.overrideAll texts = s.applyAll pairs := by
  rw [Fallible.mapM_eq_ok_iff] at h
  induction h generalizing s with
  | nil => rfl
  | @cons text p texts pairs hsplit _ ih =>
    have hoverride : s.override text = s.apply p.1 p.2 := by
      unfold override
      rw [hsplit]
      rfl
    unfold overrideAll applyAll
    rw [changeAll, changeAll, hoverride]
    dsimp only
    cases s.apply p.1 p.2 with
    | error e => rfl
    | ok next => exact ih next

theorem exists_pairs_of_fault_eq_none (h : (s.overrideAll texts).fault = none) :
    ∃ pairs, texts.mapM Change.splitOverride = .ok pairs := by
  rw [Fallible.exists_mapM_eq_ok_iff]
  induction texts generalizing s with
  | nil => simp
  | cons text texts ih =>
    obtain ⟨next, hnext, h⟩ := fault_changeAll_cons.mp h
    obtain ⟨p, hsplit, -⟩ := Fallible.bind_eq_ok_iff.mp hnext
    exact List.forall_mem_cons.mpr ⟨⟨p, hsplit⟩, ih h⟩

/-- Changes are atomic and independent of each other, and the last one of a setting wins.

* A key with a value is refused whatever the settings are, and leaves them as they were, or it is
  applied to all settings. Then it writes at most the setting that the key names, the same to all
  settings, and nothing if no setting is named.
* After keys and values that can all be applied, a setting is the one from before if its key is not
  among them, and else what the last value of its key alone makes of any settings. They can be
  reordered as long as values of the same key keep their order, and applying them again changes
  nothing.
* Overrides that are made in turn are the keys and values that their texts consist of. -/
theorem last_override_decides :
    (∀ key text,
      (∃ fault, ∀ s : Settings, s.apply key text = .error (.setting fault) ∧
        (applying key text).run.run s = (.error (.setting fault), s)) ∨
      ∃ write : Settings → Settings, ∀ s, s.apply key text = .ok (write s) ∧
        (applying key text).run.run s = (.ok (), write s) ∧
        ((∀ k : SettingKey, key ≠ k.name) → write s = s) ∧
        ∀ k : SettingKey, (key ≠ k.name → (write s).value k = s.value k) ∧
          (key = k.name → ∀ t, (write s).value k = (write t).value k)) ∧
    (∀ (s : Settings) pairs, (s.applyAll pairs).fault = none →
      (∀ k : SettingKey, (∀ p ∈ pairs, p.1 ≠ k.name) →
        (s.applyAll pairs).settings.value k = s.value k) ∧
      (∀ (k : SettingKey) before text after, pairs = before ++ (k.name, text) :: after →
        (∀ p ∈ after, p.1 ≠ k.name) → ∀ t : Settings, ∃ t', t.apply k.name text = .ok t' ∧
          (s.applyAll pairs).settings.value k = t'.value k) ∧
      (∀ pairs' : List (String × String),
        (∀ key, pairs'.filter (fun p => p.1 = key) = pairs.filter fun p => p.1 = key) →
          s.applyAll pairs' = s.applyAll pairs) ∧
      (s.applyAll pairs).settings.applyAll pairs = s.applyAll pairs) ∧
    ∀ (s : Settings) (texts : List String),
      (texts.forM overriding).run.run s =
        ((s.overrideAll texts).fault.elim (.ok ()) .error, (s.overrideAll texts).settings) ∧
      (∀ pairs, texts.mapM Change.splitOverride = .ok pairs →
        s.overrideAll texts = s.applyAll pairs) ∧
      ((s.overrideAll texts).fault = none →
        ∃ pairs, texts.mapM Change.splitOverride = .ok pairs) := by
  refine ⟨fun key text => ?_, fun s pairs h => ?_, fun s texts => ?_⟩
  · obtain ⟨fault, h⟩ | ⟨write, h⟩ := apply_cases key text
    · exact .inl ⟨fault, fun s => ⟨h s, by rw [run_applying, h s]⟩⟩
    · refine .inr ⟨write, fun s => ⟨(h s).1, by rw [run_applying, (h s).1], ?_, (h s).2⟩⟩
      exact fun hunknown => ext_value fun k => ((h s).2 k).1 (hunknown k)
  · refine ⟨fun k => value_applyAll_of_ne h, ?_, fun pairs' => applyAll_of_filter_eq h,
      applyAll_applyAll h⟩
    rintro k before text after rfl hlast
    exact value_applyAll_of_last h hlast
  · exact ⟨run_forM_overriding s texts, fun pairs h => overrideAll_eq_applyAll h s,
      exists_pairs_of_fault_eq_none⟩

/-- Of two deadlines the second is kept, wherever the other overrides stand, one of which has an
unknown key; what no override names stays as it was. -/
theorem last_override_decides_of_two_deadlines :
    let pairs := [("TreeExecutor::deadlineMs", "250"), ("Unknown::key", "x"),
      ("TreeExecutor::deadlineMs", " 900 "), ("TreeExecutor::parallelism", "sequential")]
    let reordered := [("TreeExecutor::parallelism", "sequential"),
      ("TreeExecutor::deadlineMs", "250"), ("TreeExecutor::deadlineMs", " 900 "),
      ("Unknown::key", "x")]
    let outcome := default.applyAll pairs
    outcome.fault = none ∧ outcome.settings.value .deadline = .deadline (some 900) ∧
      outcome.settings.value .weights = default.value .weights ∧
      default.applyAll reordered = outcome ∧ outcome.settings.applyAll pairs = outcome ∧
      default.overrideAll ["TreeExecutor::deadlineMs=250", "Unknown::key=x",
        "TreeExecutor::deadlineMs= 900 ", "TreeExecutor::parallelism=sequential"] = outcome := by
  intro pairs reordered outcome
  have happlies : outcome.fault = none := by rfl
  obtain ⟨-, hlists, htexts⟩ := last_override_decides
  obtain ⟨huntouched, hlast, hreorder, htwice⟩ := hlists default pairs happlies
  have hsame : ∀ key, reordered.filter (fun p => p.1 = key) = pairs.filter fun p => p.1 = key := by
    intro key
    simp only [reordered, pairs, List.filter_cons, List.filter_nil, decide_eq_true_eq]
    grind
  have hdeadline : outcome.settings.value .deadline = .deadline (some 900) := by
    obtain ⟨s, hs, hvalue⟩ := hlast .deadline
      [("TreeExecutor::deadlineMs", "250"), ("Unknown::key", "x")] " 900 "
      [("TreeExecutor::parallelism", "sequential")] rfl (by decide) default
    have hnine : default.apply SettingKey.deadline.name " 900 " =
        .ok { default with deadline := some 900 } := by rfl
    obtain rfl := Except.ok.inj (hs.symm.trans hnine)
    exact hvalue
  exact ⟨happlies, hdeadline, huntouched .weights (by decide), hreorder reordered hsame, htwice,
    (htexts default _).2.1 pairs (by rfl)⟩

end Settings

end TraceRecovery
