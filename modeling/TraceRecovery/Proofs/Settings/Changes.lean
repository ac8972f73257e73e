import TraceRecovery.Proofs.Fallible
import TraceRecovery.Settings

/-!
# What changes do to settings

Which change an override describes, if any, depends on its text alone (`Settings.override_eq`), and a
change touches no other setting than that of its key. So the later of two changes of one setting wins
(`Change.applyTo_applyTo`), and changes of different settings can be made in either order
(`Change.applyTo_comm`). Settings that agree outside a key (`Settings.AgreeOutside`) cannot be told
apart by overrides, and are equal as soon as one of them has set that key.
-/

namespace TraceRecovery

namespace Change

/-- The setting that a change sets. -/
def key : Change → SettingKey
  | threshold _ => .threshold
  | preprocessing _ => .preprocessing
  | stopWords _ => .stopWords
  | commonWords _ => .commonWords
  | weights _ => .weights
  | parallelism _ => .parallelism
  | deadline _ => .deadline

/-- The change that an override describes; none if its key is unknown. -/
def ofOverride (text : String) : Except TraceError (Option Change) := do
  let (key, value) ← splitOverride text
  ofPair key value

variable {c d : Change}

/-- Of two changes of one setting the second decides. -/
theorem applyTo_applyTo (h : c.key = d.key) (s : Settings) :
    c.applyTo (d.applyTo s) = c.applyTo s := by
  cases c <;> cases d <;> simp_all [key, applyTo]

/-- Changes of different settings can be made in either order. -/
theorem applyTo_comm (h : c.key ≠ d.key) (s : Settings) :
    c.applyTo (d.applyTo s) = d.applyTo (c.applyTo s) := by
  cases c <;> cases d <;> simp_all [key, applyTo]

end Change

namespace Settings

variable {s t : Settings} {k : SettingKey} {text : String}

/-- Whether an override can be made, and its effect, is decided by the change that its text
describes. -/
theorem override_eq (s : Settings) (text : String) :
    s.override text = match Change.ofOverride text with
      | .error e => .error e
      | .ok none => .ok s
      | .ok (some c) => .ok (c.applyTo s) := by
  unfold override Change.ofOverride
  cases Change.splitOverride text with
  | error e => rfl
  | ok pair => rfl

/-- An override can be made and sets a key. -/
def Sets (text : String) (k : SettingKey) : Prop :=
  ∃ c, Change.ofOverride text = .ok (some c) ∧ c.key = k

instance (text : String) (k : SettingKey) : Decidable (Sets text k) :=
  match h : Change.ofOverride text with
  | .ok (some c) => decidable_of_iff (c.key = k) (by simp [Sets, h])
  | .ok none => isFalse (by simp [Sets, h])
  | .error _ => isFalse (by simp [Sets, h])

/-! ## Agreement outside a key -/

/-- Two settings differ at most in the setting of one key. -/
def AgreeOutside (k : SettingKey) (s t : Settings) : Prop :=
  ∀ c : Change, c.key = k → c.applyTo s = c.applyTo t

theorem agreeOutside_applyTo {c : Change} (h : c.key = k) (s : Settings) :
    AgreeOutside k (c.applyTo s) s :=
  fun _ hd => Change.applyTo_applyTo (hd.trans h.symm) s

theorem AgreeOutside.applyTo (h : AgreeOutside k s t) (c : Change) :
    AgreeOutside k (c.applyTo s) (c.applyTo t) := by
  intro d hd
  by_cases hc : c.key = k
  · rw [h c hc]
  · have hne : d.key ≠ c.key := fun he => hc (he.symm.trans hd)
    rw [Change.applyTo_comm hne, Change.applyTo_comm hne, h d hd]

end Settings

end TraceRecovery
