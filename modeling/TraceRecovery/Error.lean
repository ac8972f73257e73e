import TraceRecovery.Decimal.Layout
import TraceRecovery.Text.Pieces

/-!
# Errors

Everything that can stop the recovery of trace links, as a cause with what it is about. The wording
of each cause stands in one place, `TraceError.message`. Errors are violated contracts: a heuristic
that cannot decide abstains and raises none.
-/

namespace TraceRecovery

/-- An argument outside its range, or a use that a node or a table does not admit. -/
inductive InvalidArgument where
  | confidenceOutOfRange (value : Float)
  | thresholdOutOfRange (value : Float)
  | weightOutOfRange (value : Float)
  | noChildren (aggregation : String)
  | weightCount (weights children : Nat)
  | sealedTable (node : String)
  | duplicateItem (id : String)
  | duplicateUnit (id : String)
  | aggregationDependency (node : String)
  | missingDependency (node : String)
  | strayDependency (node : String)
  | nothingToAverage

/-- A name or number that nothing answers to. -/
inductive Reference where
  | item (id : String)
  | unit (id : String)
  | package (id unit : String)
  | dependency (index declared : Nat)
  | node (id : Nat)
  | nodeOfTree (id : Nat) (tree : String)
  | rootNode (id : Nat)
  | input (reader : String) (id : Nat)

/-- Why the result of a node cannot be used yet. -/
inductive Incompleteness where
  /-- Some candidates have no entry, or some entries are for no candidate. -/
  | mismatch (missing candidates outside : Nat)
  /-- The table has not been sealed. -/
  | unsealed (entries : Nat)
  /-- The node has not run. -/
  | notRun

/-- What is wrong with a setting. -/
inductive SettingFault where
  | notAPair (text : String)
  | notANumber (key text : String)
  | notMilliseconds (key text : String)
  | unknownPreprocessing (key text : String)
  | unknownParallelism (text : String)
  | thresholdOutOfRange (value : Float)
  | weightCount (count : Nat)
  | weightsOutOfRange (weights : List Float)

/-- Why a run, a model or a setting was refused. -/
inductive TraceError where
  | invalidArgument (fault : InvalidArgument)
  | noValue
  | duplicateEntry (node slot : String)
  | incomplete (node : String) (why : Incompleteness)
  | cyclicDependency (node : String)
  | unresolved (reference : Reference)
  | cancelled (node : String)
  | setting (fault : SettingFault)
  /-- A file could not be read or written. -/
  | file (detail : String)
  /-- A text is no JSON document, or not one of the expected form. -/
  | json (detail : String)
  /-- A text is no YAML document, or not one of the expected form. -/
  | yaml (detail : String)
  /-- A text is no table of comma-separated values, or lacks a column. -/
  | csv (detail : String)

open Decimal (plain listed)

/-- What is said of an invalid argument. -/
def InvalidArgument.message : InvalidArgument → String
  | confidenceOutOfRange v => "confidence value must be between 0 and 1, got " ++ plain.render v
  | thresholdOutOfRange v => "threshold must be between 0 and 1, got " ++ plain.render v
  | weightOutOfRange v =>
    "aggregation weight must be finite and non-negative, got " ++ plain.render v
  | noChildren a => s!"{a} aggregation needs at least one child"
  | weightCount w c => s!"weighted aggregation has {w} weights for {c} children"
  | sealedTable n => s!"result of node '{n}' is sealed"
  | duplicateItem id => s!"duplicate architecture item id '{id}'"
  | duplicateUnit id => s!"duplicate compilation unit id '{id}'"
  | aggregationDependency n =>
    s!"aggregation node '{n}' reads its children, not declared dependencies"
  | missingDependency n => s!"dependent heuristic '{n}' declares no dependency"
  | strayDependency n => s!"standalone heuristic '{n}' cannot declare dependencies"
  | nothingToAverage => "no results to average"

/-- What is said of a reference that nothing answers to. -/
def Reference.message : Reference → String
  | item id => s!"architecture item '{id}'"
  | unit id => s!"compilation unit '{id}'"
  | package id u => s!"package '{id}' of compilation unit '{u}'"
  | dependency i n => s!"dependency #{i} (node declares {n})"
  | node id => s!"node #{id}"
  | nodeOfTree id t => s!"node #{id} in tree '{t}'"
  | rootNode id => s!"root node #{id}"
  | input r id => s!"node '{r}' reads unknown node #{id}"

/-- What is said of a result that cannot be used yet. -/
def Incompleteness.message : Incompleteness → String
  | mismatch m c o => s!"{m} of {c} tuples missing, {o} entries outside the repository"
  | unsealed e => s!"{e} entries written, result not sealed"
  | notRun => "node has not completed its pass"

/-- A list of numbers inside a message. -/
def numberList (xs : List Float) : String := "[" ++ Text.join ", " (xs.map listed.render) ++ "]"

/-- What is said of a setting. -/
def SettingFault.message : SettingFault → String
  | notAPair t => s!"override '{t}' is not KEY=VALUE"
  | notANumber k t => s!"{k}: expected a number, got '{t}'"
  | notMilliseconds k t => s!"{k}: expected milliseconds, got '{t}'"
  | unknownPreprocessing k t => s!"{k}: unknown preprocessing method '{t}'"
  | unknownParallelism t => s!"unknown parallelism '{t}'"
  | thresholdOutOfRange v => "threshold must be between 0 and 1, got " ++ plain.render v
  | weightCount n => s!"expected 2 weights (name, path), got {n}"
  | weightsOutOfRange ws => "weights must be finite and non-negative, got " ++ numberList ws

/-- What is said of an error. -/
def TraceError.message : TraceError → String
  | invalidArgument f => "invalid argument: " ++ f.message
  | noValue => "confidence has no value"
  | duplicateEntry n s => s!"duplicate entry for {s} in result of node '{n}'"
  | incomplete n w => s!"result of node '{n}' is incomplete: " ++ w.message
  | cyclicDependency n => s!"evaluation graph contains a cycle through node '{n}'"
  | unresolved r => "unresolved reference: " ++ r.message
  | cancelled n => s!"evaluation cancelled before node '{n}'"
  | setting f => "configuration error: " ++ f.message
  | file d => "io error: " ++ d
  | json d => "serialization error: " ++ d
  | yaml d => "yaml error: " ++ d
  | csv d => "csv error: " ++ d

end TraceRecovery
