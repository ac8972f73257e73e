import TraceRecovery.Decimal.Reader
import TraceRecovery.Error
import TraceRecovery.Heuristic.Companions
import TraceRecovery.Name.Preprocessing
import TraceRecovery.Tree.Cancellation

/-!
# Settings

Everything about a run that can be tuned, resolved once before a tree is built. Settings come from a
document or from changes, each of which is a key with the text of its value. A change names one
setting: a later change of the same setting wins, and a change of an unknown setting is ignored.
Whether values are in range is a question of its own, `Settings.validate`, so changes may pass
through settings that are out of range.
-/

namespace TraceRecovery

/-- How the work of a run is shared out. -/
inductive Parallelism where
  /-- The candidates of a node are scored in turn. -/
  | sequential
  /-- The candidates of a node are shared out among workers. -/
  | parallel
deriving DecidableEq, Repr

namespace Parallelism

/-- The name of a way of sharing work. -/
def name : Parallelism → String
  | sequential => "sequential"
  | parallel => "parallel"

/-- The way of sharing work with exactly this name. -/
def ofName? : String → Option Parallelism
  | "sequential" => some sequential
  | "parallel" => some parallel
  | _ => none

theorem ofName?_name (p : Parallelism) : ofName? p.name = some p := by cases p <;> rfl

/-- Reads the name of a way of sharing work in any case, with white space around it. -/
def ofText (text : String) : Except TraceError Parallelism :=
  let name := Text.lower (Text.trim text)
  match ofName? name with
  | some p => .ok p
  | none => .error (.setting (.unknownParallelism name))

end Parallelism

/-- The settings of a run. -/
structure Settings where
  /-- The least confidence of a trace link. -/
  threshold : Float
  preprocessing : Name.Preprocessing
  /-- The words that are dropped from names where they are filtered. -/
  stopWords : List String
  /-- The words that mark companions. -/
  commonWords : List String
  /-- The weights of names and of paths. -/
  weights : List Float
  parallelism : Parallelism
  /-- The time after which a run is given up, in milliseconds. -/
  deadline : Option Nat

namespace Settings

/-- The settings where nothing is said. -/
def default : Settings where
  threshold := 0.5
  preprocessing := .splitFiltered
  stopWords := Name.defaultStopWords
  commonWords := Companion.defaultCommonWords
  weights := [0.7, 0.3]
  parallelism := .parallel
  deadline := none

instance : Inhabited Settings := ⟨default⟩

/-- Whether the threshold lies between 0 and 1 and there are two weights, both finite and not
negative. The first of these that does not hold is reported. -/
def validate (s : Settings) : Except TraceError Unit :=
  if ¬(0 ≤ s.threshold ∧ s.threshold ≤ 1) then
    .error (.setting (.thresholdOutOfRange s.threshold))
  else if s.weights.length ≠ 2 then .error (.setting (.weightCount s.weights.length))
  else if s.weights.any fun w => !w.isFinite || w < 0 then
    .error (.setting (.weightsOutOfRange s.weights))
  else .ok ()

/-- The default settings are in range. -/
theorem validate_default : default.validate = .ok () := rfl

/-- How names are read. -/
def preprocessor (s : Settings) : Name.Preprocessor :=
  (Name.Preprocessor.ofMethod s.preprocessing).withStopWords s.stopWords

/-- The token of the runs: one that times out if there is a deadline. -/
def token (s : Settings) (first : Token) : Token :=
  match s.deadline with
  | none => first
  | some milliseconds => first.withTimeout milliseconds

end Settings

/-- The names of the settings in changes. -/
inductive SettingKey where
  | threshold
  | preprocessing
  | stopWords
  | commonWords
  | weights
  | parallelism
  | deadline
deriving DecidableEq, Repr

namespace SettingKey

/-- The text of a key. -/
def name : SettingKey → String
  | threshold => "TraceLinkExporter::threshold"
  | preprocessing => "NameResemblance::preprocessing"
  | stopWords => "NameResemblance::stopWords"
  | commonWords => "SiblingResemblance::commonWords"
  | weights => "StandardTree::weights"
  | parallelism => "TreeExecutor::parallelism"
  | deadline => "TreeExecutor::deadlineMs"

/-- The key with a text. -/
def ofName? : String → Option SettingKey
  | "TraceLinkExporter::threshold" => some threshold
  | "NameResemblance::preprocessing" => some preprocessing
  | "NameResemblance::stopWords" => some stopWords
  | "SiblingResemblance::commonWords" => some commonWords
  | "StandardTree::weights" => some weights
  | "TreeExecutor::parallelism" => some parallelism
  | "TreeExecutor::deadlineMs" => some deadline
  | _ => none

theorem ofName?_name (k : SettingKey) : ofName? k.name = some k := by cases k <;> rfl

end SettingKey

/-- A list written with commas between its elements: white space around an element does not belong
to it, and an element without text is none. -/
def listOfText (text : String) : List String :=
  ((Text.cutAt ',' text.toList).map fun piece => String.ofList (Text.trimChars piece)).filter
    fun w => !w.isEmpty

/-- A new value of one setting. -/
inductive Change where
  | threshold (value : Float)
  | preprocessing (value : Name.Preprocessing)
  | stopWords (value : List String)
  | commonWords (value : List String)
  | weights (value : List Float)
  | parallelism (value : Parallelism)
  | deadline (value : Option Nat)

namespace Change

/-- The number that a text stands for, as the value of a key. -/
def number (key : SettingKey) (text : String) : Except TraceError Float :=
  match Decimal.float? (Text.trim text) with
  | some x => .ok x
  | none => .error (.setting (.notANumber key.name text))

/-- The change of a setting to the value that a text stands for. -/
def ofValue (key : SettingKey) (text : String) : Except TraceError Change :=
  match key with
  | .threshold => return threshold (← number key text)
  | .preprocessing =>
    match Name.Preprocessing.ofText? text with
    | .ok p => .ok (preprocessing p)
    | .error _ => .error (.setting (.unknownPreprocessing key.name text))
  | .stopWords => .ok (stopWords (listOfText text))
  | .commonWords => .ok (commonWords (listOfText text))
  | .weights => return weights (← (listOfText text).mapM (number key))
  | .parallelism => return parallelism (← Parallelism.ofText text)
  | .deadline =>
    if text.isEmpty then .ok (deadline none)
    else match Decimal.word? text with
      | some n => .ok (deadline (some n))
      | none => .error (.setting (.notMilliseconds key.name text))

/-- The change that a key and the text of a value describe. White space around the text does not
belong to it, and an unknown key describes no change. -/
def ofPair (key value : String) : Except TraceError (Option Change) :=
  match SettingKey.ofName? key with
  | none => .ok none
  | some k => return some (← ofValue k (Text.trim value))

/-- The key and the value of an override, which stand before and behind the first equals sign. -/
def splitOverride (text : String) : Except TraceError (String × String) :=
  match Text.cutOnce '=' text.toList with
  | some (key, value) => .ok (String.ofList (Text.trimChars key), String.ofList value)
  | none => .error (.setting (.notAPair text))

/-- Makes a change. -/
def applyTo (s : Settings) : Change → Settings
  | threshold x => { s with threshold := x }
  | preprocessing p => { s with preprocessing := p }
  | stopWords ws => { s with stopWords := ws }
  | commonWords ws => { s with commonWords := ws }
  | weights ws => { s with weights := ws }
  | parallelism p => { s with parallelism := p }
  | deadline d => { s with deadline := d }

end Change

/-- The settings as far as changes were made, and what stopped the changes if anything did. -/
structure Changed where
  settings : Settings
  fault : Option TraceError

namespace Settings

/-- The settings after the change that a key and a value describe. -/
def apply (s : Settings) (key value : String) : Except TraceError Settings :=
  match Change.ofPair key value with
  | .error e => .error e
  | .ok none => .ok s
  | .ok (some change) => .ok (change.applyTo s)

/-- The settings after an override. -/
def override (s : Settings) (text : String) : Except TraceError Settings := do
  let (key, value) ← Change.splitOverride text
  s.apply key value

/-- Makes several changes in turn, up to the first that cannot be made. -/
def changeAll {α : Type} (change : Settings → α → Except TraceError Settings) (s : Settings) :
    List α → Changed
  | [] => ⟨s, none⟩
  | x :: xs =>
    match change s x with
    | .error e => ⟨s, some e⟩
    | .ok next => changeAll change next xs

/-- The settings after overrides in turn; the overrides before one that fails have been made. -/
def overrideAll (s : Settings) (texts : List String) : Changed := changeAll override s texts

/-- The default settings with changes made to them, which must be in range in the end. -/
def ofPairs (pairs : List (String × String)) : Except TraceError Settings :=
  match changeAll (fun s (key, value) => s.apply key value) default pairs with
  | ⟨_, some e⟩ => .error e
  | ⟨s, none⟩ => do
    s.validate
    return s

/-- The settings of a base with overrides and then a threshold put over it. -/
def layered (base : Settings) (overrides : List String) (threshold : Option Float) :
    Except TraceError Settings :=
  match base.overrideAll overrides with
  | ⟨_, some e⟩ => .error e
  | ⟨s, none⟩ => do
    let result := { s with threshold := threshold.getD s.threshold }
    result.validate
    return result

end Settings

end TraceRecovery
