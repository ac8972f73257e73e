/-!
# JSON values

A JSON document as it is written: an object keeps the order and the repetitions of its members, a
number keeps its digits, and a string that names half of a surrogate pair is kept as a string
without text. What such a document means for a record is decided when the record is read.
-/

namespace TraceRecovery

/-- A JSON value. -/
inductive Json where
  | null
  | bool (b : Bool)
  /-- A number, as it is written. -/
  | number (literal : List Char)
  /-- A string. There is no text if an escape in it names half of a surrogate pair. -/
  | string (text? : Option String)
  | array (elements : List Json)
  /-- An object with its members in the order of writing; a key may lack text as a string may. -/
  | object (members : List (Option String × Json))

namespace Json

/-- A string with a text. -/
def text (s : String) : Json := .string (some s)

/-- A list of strings with texts. -/
def texts (ss : List String) : Json := .array (ss.map text)

/-- A natural number. -/
def nat (n : Nat) : Json := .number (Nat.toDigits 10 n)

/-- An object whose keys have texts. -/
def record (members : List (String × Json)) : Json :=
  .object (members.map fun (k, v) => (some k, v))

mutual

/-- How deeply arrays and objects are nested. -/
def depth : Json → Nat
  | .array elements => depthOfElements elements + 1
  | .object members => depthOfMembers members + 1
  | _ => 0

/-- The greatest depth of some values. -/
def depthOfElements : List Json → Nat
  | [] => 0
  | v :: vs => max (depth v) (depthOfElements vs)

/-- The greatest depth of the values of some members. -/
def depthOfMembers : List (Option String × Json) → Nat
  | [] => 0
  | (_, v) :: ms => max (depth v) (depthOfMembers ms)

end

end Json

end TraceRecovery
