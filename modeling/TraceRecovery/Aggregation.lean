import TraceRecovery.Confidence

/-!
# Aggregation

How an inner node of a tree combines the confidences of its children for one candidate. Only the
defined confidences count, and where there are none the node abstains: an abstention is never taken
for zero.
-/

namespace TraceRecovery

/-- How the confidences of several children become one. -/
inductive Aggregation where
  /-- The mean of the defined values. -/
  | average
  /-- The least defined value. -/
  | min
  /-- The greatest defined value. -/
  | max
  /-- The mean of the defined values with one weight for each child. -/
  | weighted (weights : List Float)

namespace Aggregation

/-- The name of an aggregation, which labels its nodes. -/
def name : Aggregation → String
  | average => "average"
  | min => "min"
  | max => "max"
  | weighted _ => "weighted"

/-- The text of an aggregation in messages. -/
def render : Aggregation → String
  | weighted ws => "weighted[" ++ Text.join ", " (ws.map Decimal.plain.render) ++ "]"
  | other => other.name

/-- Whether a number may be a weight. -/
def isWeight (w : Float) : Bool := w.isFinite && 0 ≤ w

/-- The number brought into the range of confidences. No number stays none. -/
def clamp (x : Float) : Float :=
  let x := if x < 0 then 0 else x
  if 1 < x then 1 else x

/-- Whether the aggregation can combine that many children: at least one, and for the weighted mean
as many as there are weights, all of them finite and non-negative. -/
def validate (a : Aggregation) (children : Nat) : Except TraceError Unit :=
  if children = 0 then .error (.invalidArgument (.noChildren a.name))
  else match a with
    | weighted ws =>
      if ws.length ≠ children then .error (.invalidArgument (.weightCount ws.length children))
      else match ws.find? fun w => !isWeight w with
        | some bad => .error (.invalidArgument (.weightOutOfRange bad))
        | none => .ok ()
    | _ => .ok ()

/-- The values of the defined confidences. -/
def defined (cs : List Confidence) : List Float := cs.filterMap Confidence.value?

/-- The defined values with the weights of their children. -/
def definedWithWeights (cs : List Confidence) (ws : List Float) : List (Float × Float) :=
  (cs.zip ws).filterMap fun (c, w) => c.value?.map fun v => (v, w)

/-- The value that the others of a list do not beat in a comparison; of several the first. -/
def extreme (beats : Float → Float → Bool) : List Float → Option Float
  | [] => none
  | v :: vs => some (vs.foldl (fun kept x => if beats x kept then x else kept) v)

/-- The confidence with a value if there is one. -/
def confidence : Option Float → Except TraceError Confidence
  | none => .ok .unset
  | some v => Confidence.ofValue v

/-- The combination of the confidences of all children, in the order of the children. -/
def combine (a : Aggregation) (cs : List Confidence) : Except TraceError Confidence :=
  match a with
  | average =>
    let vs := defined cs
    if vs.isEmpty then .ok .unset
    else Confidence.ofValue (clamp (vs.foldl (· + ·) (0 : Float) / Float.ofNat vs.length))
  | min => confidence (extreme (fun x kept => x < kept) (defined cs))
  | max => confidence (extreme (fun x kept => kept < x) (defined cs))
  | weighted ws => do
    a.validate cs.length
    let vws := definedWithWeights cs ws
    let weighted := vws.foldl (fun s (v, w) => s + v * w) (0 : Float)
    let total := vws.foldl (fun t (_, w) => t + w) (0 : Float)
    if total == 0 then .ok .unset else Confidence.ofValue (clamp (weighted / total))

end Aggregation

end TraceRecovery
