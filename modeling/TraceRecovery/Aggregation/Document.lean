import TraceRecovery.Aggregation
import TraceRecovery.Json.Printer
import TraceRecovery.Json.Record

/-!
# Confidences and aggregations as JSON

A confidence is written as its value, an abstention as null. An aggregation is written as a record
of its name, `policy`, and its `weights`; only the weighted mean has weights, and for the others
there is null in their place if anything.
-/

namespace TraceRecovery

/-- The value that describes a confidence. -/
def Confidence.toJson : Confidence → Json
  | unset => .null
  | of v _ => .ofFloat v

/-- The confidence that a value describes. -/
def Confidence.ofJson? : Json → Option Confidence
  | .null => some unset
  | v => Json.float? v >>= fun x => (ofValue x).toOption

namespace Aggregation

/-- The value that describes an aggregation. -/
def toJson : Aggregation → Json
  | weighted ws =>
    .record [("policy", .text "weighted"), ("weights", .array (ws.map Json.ofFloat))]
  | other => .record [("policy", .text other.name)]

/-- The aggregation without weights that a name stands for. -/
def ofName? : String → Option Aggregation
  | "average" => some average
  | "min" => some min
  | "max" => some max
  | _ => none

/-- The aggregation with a name and with what stands in place of the weights. -/
def ofParts? (name : String) (weights : Option Json) : Option Aggregation :=
  if name = "weighted" then weights >>= Json.list? Json.float? |>.map weighted
  else match weights with
    | none | some .null => ofName? name
    | some _ => none

/-- The aggregation that a value describes. A record that is written as an array has both parts. -/
def ofJson? (v : Json) : Option Aggregation := do
  let fs ← Json.fields? ["policy", "weights"] v
  let name ← fs.required 0 Json.choice?
  let weights ← fs[1]?
  match v, weights with
  | .array _, none => none
  | _, _ => ofParts? name weights

end Aggregation

end TraceRecovery
