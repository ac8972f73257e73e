import TraceRecovery.Json.Parser
import TraceRecovery.Json.Printer
import TraceRecovery.Json.Record
import TraceRecovery.Link.Basic
import TraceRecovery.Link.RunId
import TraceRecovery.Time.Instant
import TraceRecovery.Tree.Evaluation

/-!
# Reports

The links of a run together with what the run was: a document for other tools. `Report.ofText` reads
back what `Report.toText` writes, and takes any threshold and confidence that is a number.
-/

namespace TraceRecovery

/-- The links of a finished run, sourced from its tree. -/
def Evaluation.links (e : Evaluation) (θ : Threshold) : Except TraceError (List TraceLink) :=
  θ.links e.space e.result e.treeName

/-- The links of a run and the facts about it. -/
structure Report where
  runId : RunId
  tree : String
  threshold : Float
  /-- The number of candidates that were scored. -/
  candidates : Nat
  generatedAt : Time.Instant
  links : List TraceLink

/-- The value that describes a link. -/
def TraceLink.toJson (l : TraceLink) : Json :=
  .record
    [("architecture_id", .text l.itemId), ("architecture_name", .text l.itemName),
     ("code_id", .text l.unitId), ("code_name", .text l.unitName),
     ("confidence", .ofFloat l.confidence), ("source", .text l.source)]

/-- The link that a value describes. -/
def TraceLink.ofJson? (v : Json) : Option TraceLink := do
  let fs ← Json.fields?
    ["architecture_id", "architecture_name", "code_id", "code_name", "confidence", "source"] v
  some {
    itemId := ← fs.required 0 Json.string?
    itemName := ← fs.required 1 Json.string?
    unitId := ← fs.required 2 Json.string?
    unitName := ← fs.required 3 Json.string?
    confidence := ← fs.required 4 Json.float?
    source := ← fs.required 5 Json.string? }

namespace Report

/-- The report of a finished run. -/
def ofEvaluation (runId : RunId) (generatedAt : Time.Instant) (θ : Threshold) (e : Evaluation) :
    Except TraceError Report := do
  return ⟨runId, e.treeName, θ.value, e.space.size, generatedAt, ← e.links θ⟩

/-- The value that describes a report. -/
def toJson (r : Report) : Json :=
  .record
    [("run_id", .text r.runId.render), ("tree", .text r.tree),
     ("threshold", .ofFloat r.threshold), ("candidates", .nat r.candidates),
     ("generated_at", .text r.generatedAt.render), ("links", .array (r.links.map TraceLink.toJson))]

/-- The text of a report. -/
def toText (r : Report) : String := r.toJson.toPretty

/-- The report that a value describes. -/
def ofJson? (v : Json) : Option Report := do
  let fs ← Json.fields? ["run_id", "tree", "threshold", "candidates", "generated_at", "links"] v
  some {
    runId := ← fs.required 0 fun v => Json.string? v >>= RunId.ofText?
    tree := ← fs.required 1 Json.string?
    threshold := ← fs.required 2 Json.float?
    candidates := ← fs.required 3 Json.word?
    generatedAt := ← fs.required 4 fun v => Json.string? v >>= Time.Instant.ofText?
    links := ← fs.required 5 (Json.list? TraceLink.ofJson?) }

/-- The report that a text describes. -/
def ofText (text : String) : Except TraceError Report :=
  match Json.ofText? text >>= ofJson? with
  | some r => .ok r
  | none => .error (.json "the text is no report")

end Report

end TraceRecovery
