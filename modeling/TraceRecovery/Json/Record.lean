import TraceRecovery.Json.Basic
import TraceRecovery.Json.Number

/-!
# Records in JSON documents

A record is written as an object with its fields as members, or as an array of its fields in the
order of their declaration. In an object no known field may be repeated, and unknown members are
ignored; an array may leave out fields at its end but has no elements beyond them. Reading a field
that is not there is an error unless the field has a default, and so is a null in place of a field
that is not optional. A choice among names is written as the name, or as an object that has it as
its only key, with null as the value.
-/

namespace TraceRecovery.Json

/-- The fields of a record by position; a field that is not written has no value. -/
abbrev Fields := List (Option Json)

/-- The value of the only member with a key; no result at all if the key is repeated. -/
def member? (members : List (Option String × Json)) (key : String) : Option (Option Json) :=
  match members.filter fun m => m.1 == some key with
  | [] => some none
  | [(_, v)] => some (some v)
  | _ => none

/-- The fields of a record with the given names. -/
def fields? (names : List String) : Json → Option Fields
  | .object members =>
    if members.all fun m => m.1.isSome then names.mapM (member? members) else none
  | .array elements =>
    if elements.length ≤ names.length then
      some (elements.map some ++ List.replicate (names.length - elements.length) none)
    else none
  | _ => none

/-- A string with a text. -/
def string? : Json → Option String
  | .string text? => text?
  | _ => none

/-- A string or null. -/
def optional? {α : Type} (read : Json → Option α) : Json → Option (Option α)
  | .null => some none
  | v => (read v).map some

/-- A list. -/
def list? {α : Type} (read : Json → Option α) : Json → Option (List α)
  | .array elements => elements.mapM read
  | _ => none

/-- A number that a double can hold. -/
def float? : Json → Option Float
  | .number literal => floatOf? literal
  | _ => none

/-- A natural number of 64 bits. -/
def word? : Json → Option Nat
  | .number literal => wordOf? literal
  | _ => none

/-- A name, or an object with a name as its only key and null as the value. -/
def choice? : Json → Option String
  | .string text? => text?
  | .object [(key, .null)] => key
  | _ => none

/-- The field at a position, which must be written. -/
def Fields.required {α : Type} (fs : Fields) (i : Nat) (read : Json → Option α) : Option α :=
  match fs[i]? with
  | some (some v) => read v
  | _ => none

/-- The field at a position, or a default if it is not written. -/
def Fields.withDefault {α : Type} (fs : Fields) (i : Nat) (read : Json → Option α) (d : α) :
    Option α :=
  match fs[i]? with
  | some (some v) => read v
  | _ => some d

end TraceRecovery.Json
