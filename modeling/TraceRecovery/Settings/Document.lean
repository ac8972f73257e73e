import TraceRecovery.Settings
import TraceRecovery.Yaml.Document

/-!
# Settings in YAML documents

A document of settings is a mapping from the names of fields to their values; an empty document has
no fields. A field that is not written has its default, a field that is no setting is ignored, and
no setting may be written twice. Numbers must not be quoted, lists of words may hold any texts,
and a choice is a text or a tag that consists of its name.
-/

namespace TraceRecovery

namespace Yaml

/-- What a value that has a tag and a plain text written as null stands for. -/
def isNullText (text : String) : Bool := ["null", "Null", "NULL", "~"].contains text

/-- The text of a value. -/
def text? : Node → Option String
  | .scalar _ _ text => some text
  | _ => none

/-- A list; nothing at all is an empty list. -/
def list? {α : Type} (read : Node → Option α) : Node → Option (List α)
  | .sequence elements => elements.mapM read
  | node => if node.isEmpty then some [] else none

/-- The number that a plain text stands for: a decimal number that a double can hold, an infinity or
no number. -/
def floatOfText? (text : String) : Option Float :=
  let unsigned := match text.toList with
    | '+' :: rest => String.ofList rest
    | _ => text
  let isTwiceSigned := unsigned.startsWith "+" || (text.startsWith "+" && unsigned.startsWith "-")
  if isTwiceSigned then none
  else if [".inf", ".Inf", ".INF"].contains unsigned then some (1 / 0)
  else if ["-.inf", "-.Inf", "-.INF"].contains text then some (-(1 / 0))
  else if [".nan", ".NaN", ".NAN"].contains text then some (0 / 0)
  else (Decimal.float? unsigned).filter Float.isFinite

/-- The text of a value that may be a number: it must be written plainly, or as a block that keeps
its line ends and has the tag of such numbers. -/
def numeral? (tag : String) : Node → Option String
  | .scalar .plain _ text => some text
  | .scalar .literal (some given) text => if given = tag then some text else none
  | _ => none

/-- A number. -/
def float? (n : Node) : Option Float := numeral? "tag:yaml.org,2002:float" n >>= floatOfText?

/-- The value of digits in a base; letters count on from ten. -/
def digitsValue? (base : Nat) (ds : List Char) : Option Nat :=
  if ds.isEmpty then none
  else ds.foldlM (fun n c => do
    let v ← Json.hexValue? c
    if v < base then some (base * n + v) else none) 0

/-- The natural number that a plain text stands for: in decimal without leading zeros, or behind
`0x`, `0o` or `0b` in another base, with or without a plus sign. -/
def naturalOfText? (text : String) : Option Nat :=
  let cs := match text.toList with
    | '+' :: rest => rest
    | cs => cs
  match cs with
  | '0' :: 'x' :: ds => digitsValue? 16 ds
  | '0' :: 'o' :: ds => digitsValue? 8 ds
  | '0' :: 'b' :: ds => digitsValue? 2 ds
  | '0' :: _ :: _ => none
  | ds => digitsValue? 10 ds

/-- A natural number of 64 bits. -/
def word? (n : Node) : Option Nat :=
  (numeral? "tag:yaml.org,2002:int" n >>= naturalOfText?).filter (· < Nat.pow 2 64)

/-- A value that may be left out or written as null. With a tag only null itself may be. -/
def optional? {α : Type} (read : Node → Option α) : Node → Option (Option α)
  | .scalar .plain none text =>
    if text.isEmpty || isNullText text then some none
    else (read (.scalar .plain none text)).map some
  | .scalar .plain (some tag) text =>
    if tag = "tag:yaml.org,2002:null" then if isNullText text then some none else none
    else (read (.scalar .plain (some tag) text)).map some
  | node => (read node).map some

/-- The name of a choice: a text, or a tag with nothing behind it. -/
def choice? : Node → Option String
  | .scalar style (some tag) text =>
    match tag.toList with
    | '!' :: name =>
      if style = .plain && (text.isEmpty || isNullText text) then some (String.ofList name) else none
    | _ => some text
  | .scalar _ none text => some text
  | _ => none

/-- The fields of a mapping, whose keys must be texts. Nothing at all has no fields. -/
def fields? : Node → Option (List (String × Node))
  | .mapping entries => entries.mapM fun (k, v) => (text? k).map fun name => (name, v)
  | node => if node.isEmpty then some [] else none

/-- The value of a field that is written at most once. -/
def field? {α : Type} (fields : List (String × Node)) (name : String) (read : Node → Option α)
    (default : α) : Option α :=
  match fields.filter fun f => f.1 == name with
  | [] => some default
  | [(_, v)] => read v
  | _ => none

end Yaml

namespace Settings

/-- The settings that a value describes. -/
def ofNode? (node : Yaml.Node) : Option Settings := do
  let fs ← Yaml.fields? node
  some {
    threshold := ← Yaml.field? fs "threshold" Yaml.float? default.threshold
    preprocessing := ← Yaml.field? fs "preprocessing"
      (fun v => Yaml.choice? v >>= Name.Preprocessing.ofName?) default.preprocessing
    stopWords := ← Yaml.field? fs "stop_words" (Yaml.list? Yaml.text?) default.stopWords
    commonWords := ← Yaml.field? fs "common_words" (Yaml.list? Yaml.text?) default.commonWords
    weights := ← Yaml.field? fs "weights" (Yaml.list? Yaml.float?) default.weights
    parallelism := ← Yaml.field? fs "parallelism"
      (fun v => Yaml.choice? v >>= Parallelism.ofName?) default.parallelism
    deadline := ← Yaml.field? fs "deadline_ms" (Yaml.optional? Yaml.word?) default.deadline }

/-- The settings that a text describes, which need not be in range. -/
def read (text : String) : Except TraceError Settings :=
  match Yaml.ofText? text with
  | none => .error (.yaml "the text is no single document")
  | some document =>
    match ofNode? (document.getD .empty) with
    | some s => .ok s
    | none => .error (.yaml "the text is no document of settings")

/-- The settings that a text describes, which must be in range. -/
def ofText (text : String) : Except TraceError Settings := do
  let s ← read text
  s.validate
  return s

/-- The settings of a document, or the default settings if there is none, with overrides and then a
threshold put over them. -/
def ofLayers (document : Option String) (overrides : List String) (threshold : Option Float) :
    Except TraceError Settings := do
  let base ← match document with
    | some text => ofText text
    | none => .ok default
  layered base overrides threshold

end Settings

end TraceRecovery
