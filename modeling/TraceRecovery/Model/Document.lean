import TraceRecovery.Json.Parser
import TraceRecovery.Json.Printer
import TraceRecovery.Json.Record
import TraceRecovery.Model.Code

/-!
# Models as JSON documents

The documents that architectures and code are read from, and the form in which items and units are
written. An item is an object whose member `kind` decides which of the other members it has; the
members of the other kind are ignored, but like everything in an item they must be well-formed:
numbers in range, strings with a text, and nested no deeper than a document may be. Units, data
types and packages are plain records.
-/

namespace TraceRecovery

namespace Json

mutual

/-- Whether every number in a value has a double, and every string and key a text. -/
def isSound : Json → Bool
  | .number literal => (floatOf? literal).isSome
  | .string text? => text?.isSome
  | .array elements => areElementsSound elements
  | .object members => areMembersSound members
  | _ => true

/-- Whether all of some values are sound. -/
def areElementsSound : List Json → Bool
  | [] => true
  | v :: vs => isSound v && areElementsSound vs

/-- Whether all of some members are sound. -/
def areMembersSound : List (Option String × Json) → Bool
  | [] => true
  | (k, v) :: ms => k.isSome && isSound v && areMembersSound ms

end

end Json

/-- How deeply the values of an item may be nested in a document of its own. -/
def nestingLimit : Nat := 126

namespace ItemKind

/-- The two kinds of items. -/
inductive Tag where
  | component
  | interface
deriving DecidableEq

/-- The kind that a member `kind` names, by its name or by its number. -/
def tag? : Json → Option Tag
  | .string (some "component") => some .component
  | .string (some "interface") => some .interface
  | .number literal =>
    match Json.wordOf? literal with
    | some 0 => some .component
    | some 1 => some .interface
    | _ => none
  | _ => none

/-- The kind of an item with the given members. -/
def ofMembers? (members : List (Option String × Json)) : Option ItemKind := do
  let tag ← (← Json.member? members "kind") >>= tag?
  match tag with
  | .component =>
    match ← Json.member? members "component_type" with
    | none => some (.component none)
    | some v => (Json.optional? Json.string? v).map .component
  | .interface =>
    match ← Json.member? members "method_signatures" with
    | none => some (.interface [])
    | some v => (Json.list? Json.string? v).map .interface

end ItemKind

namespace Item

/-- The item that a value describes, whose members may be nested as deeply as `room` says. -/
def ofJson? (room : Nat) : Json → Option Item
  | .object members => do
    let id ← (← Json.member? members "id") >>= Json.string?
    let name ← (← Json.member? members "name") >>= Json.string?
    let kind ← ItemKind.ofMembers? members
    if Json.areMembersSound members && Json.depthOfMembers members ≤ room then
      some ⟨id, name, kind⟩
    else none
  | _ => none

/-- The members that describe a kind. A component without type and an interface without methods have
only the name of their kind. -/
def kindMembers : ItemKind → List (String × Json)
  | .component none => [("kind", .text "component")]
  | .component (some type) => [("kind", .text "component"), ("component_type", .text type)]
  | .interface [] => [("kind", .text "interface")]
  | .interface signatures => [("kind", .text "interface"), ("method_signatures", .texts signatures)]

/-- The value that describes an item. -/
def toJson (item : Item) : Json :=
  .record ([("id", .text item.id), ("name", .text item.name)] ++ kindMembers item.kind)

end Item

/-- The kind of code that a value names. -/
def CodeKind.ofJson? (v : Json) : Option CodeKind := Json.choice? v >>= CodeKind.ofName?

/-- The data type that a value describes. -/
def DataType.ofJson? (v : Json) : Option DataType := do
  let fs ← Json.fields? ["name", "kind", "supertypes"] v
  some {
    name := ← fs.required 0 Json.string?
    kind := ← fs.withDefault 1 CodeKind.ofJson? .classType
    supertypes := ← fs.withDefault 2 (Json.list? Json.string?) [] }

/-- The value that describes a data type. -/
def DataType.toJson (t : DataType) : Json :=
  .record ([("name", .text t.name), ("kind", .text t.kind.name)] ++
    if t.supertypes.isEmpty then [] else [("supertypes", .texts t.supertypes)])

/-- The package that a value describes. -/
def Package.ofJson? (v : Json) : Option Package := do
  let fs ← Json.fields? ["id", "name"] v
  some { id := ← fs.required 0 Json.string?, name := ← fs.required 1 Json.string? }

/-- The value that describes a package. -/
def Package.toJson (p : Package) : Json := .record [("id", .text p.id), ("name", .text p.name)]

namespace CodeUnit

/-- The unit that a value describes. -/
def ofJson? (v : Json) : Option CodeUnit := do
  let fs ← Json.fields? ["id", "name", "path", "package", "data_types"] v
  some {
    id := ← fs.required 0 Json.string?
    name := ← fs.required 1 Json.string?
    path := ← fs.withDefault 2 (Json.list? Json.string?) []
    package := ← fs.withDefault 3 (Json.optional? Json.string?) none
    dataTypes := ← fs.withDefault 4 (Json.list? DataType.ofJson?) [] }

/-- The value that describes a unit. -/
def toJson (u : CodeUnit) : Json :=
  .record ([("id", .text u.id), ("name", .text u.name), ("path", .texts u.path)] ++
    (match u.package with
      | none => []
      | some p => [("package", .text p)]) ++
    [("data_types", .array (u.dataTypes.map DataType.toJson))])

end CodeUnit

/-- What a JSON document lacks that holds no model. -/
def notADocument (what : String) : TraceError := .json s!"the text is no document of {what}"

namespace Architecture

/-- The items that a document lists. -/
def itemsOfJson? (v : Json) : Option (List Item) := do
  let fs ← Json.fields? ["items"] v
  fs.required 0 (Json.list? (Item.ofJson? (nestingLimit - 2)))

/-- The architecture that a JSON text describes. -/
def ofText (text : String) : Except TraceError Architecture :=
  match Json.ofText? text >>= itemsOfJson? with
  | none => .error (notADocument "an architecture")
  | some items => ofItems items

end Architecture

namespace Code

/-- The units and packages that a document lists. -/
def partsOfJson? (v : Json) : Option (List CodeUnit × List Package) := do
  let fs ← Json.fields? ["units", "packages"] v
  let units ← fs.required 0 (Json.list? CodeUnit.ofJson?)
  let packages ← fs.withDefault 1 (Json.list? Package.ofJson?) []
  some (units, packages)

/-- The code that a JSON text describes. -/
def ofText (text : String) : Except TraceError Code :=
  match Json.ofText? text >>= partsOfJson? with
  | none => .error (notADocument "code")
  | some (units, packages) => ofUnits units packages

end Code

end TraceRecovery
