import TraceRecovery.Json.Basic
import TraceRecovery.Json.Escape
import TraceRecovery.Decimal.Layout

/-!
# Writing JSON

Two forms of a document: `compact` has no white space at all, `pretty` puts every element and
every member on a line of its own, indented by two spaces a level. An empty list or object stays
on its line in both.
-/

namespace TraceRecovery.Json

/-- A string in quotes. A string without text is written as an empty one. -/
def quoted (text? : Option String) : List Char :=
  '"' :: escaped ((text?.getD "").toList) ++ ['"']

/-- A double as a number. Values that are no numbers are written as null. -/
def ofFloat (x : Float) : Json :=
  if x.isFinite then .number (Decimal.document.chars x) else .null

mutual

/-- A value without white space. -/
def compact : Json → List Char
  | .null => "null".toList
  | .bool true => "true".toList
  | .bool false => "false".toList
  | .number literal => literal
  | .string text? => quoted text?
  | .array [] => ['[', ']']
  | .array (v :: vs) => '[' :: compact v ++ compactElements vs
  | .object [] => ['\x7b', '\x7d']
  | .object ((k, v) :: ms) => '\x7b' :: quoted k ++ ':' :: compact v ++ compactMembers ms

/-- The elements behind the first, and the closing bracket. -/
def compactElements : List Json → List Char
  | [] => [']']
  | v :: vs => ',' :: compact v ++ compactElements vs

/-- The members behind the first, and the closing brace. -/
def compactMembers : List (Option String × Json) → List Char
  | [] => ['\x7d']
  | (k, v) :: ms => ',' :: quoted k ++ ':' :: compact v ++ compactMembers ms

end

/-- The start of a line at a level of indentation. -/
def newline (level : Nat) : List Char := '\n' :: List.replicate (2 * level) ' '

mutual

/-- A value whose parts stand on lines of their own, one level further in. -/
def pretty (level : Nat) : Json → List Char
  | .array [] => ['[', ']']
  | .array (v :: vs) =>
    '[' :: newline (level + 1) ++ pretty (level + 1) v ++ prettyElements level vs
  | .object [] => ['\x7b', '\x7d']
  | .object ((k, v) :: ms) =>
    '\x7b' :: newline (level + 1) ++ quoted k ++ ':' :: ' ' :: pretty (level + 1) v ++
      prettyMembers level ms
  | .null => "null".toList
  | .bool true => "true".toList
  | .bool false => "false".toList
  | .number literal => literal
  | .string text? => quoted text?

/-- The elements behind the first, and the closing bracket on a line of its own. -/
def prettyElements (level : Nat) : List Json → List Char
  | [] => newline level ++ [']']
  | v :: vs => ',' :: newline (level + 1) ++ pretty (level + 1) v ++ prettyElements level vs

/-- The members behind the first, and the closing brace on a line of its own. -/
def prettyMembers (level : Nat) : List (Option String × Json) → List Char
  | [] => newline level ++ ['\x7d']
  | (k, v) :: ms =>
    ',' :: newline (level + 1) ++ quoted k ++ ':' :: ' ' :: pretty (level + 1) v ++
      prettyMembers level ms

end

/-- The compact text of a document. -/
def toCompact (j : Json) : String := String.ofList j.compact

/-- The indented text of a document. -/
def toPretty (j : Json) : String := String.ofList (j.pretty 0)

end TraceRecovery.Json
