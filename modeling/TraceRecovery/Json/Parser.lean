import TraceRecovery.Json.Basic
import TraceRecovery.Json.Escape
import TraceRecovery.Json.Number

/-!
# Reading JSON

A reader of strict JSON: nothing but white space may follow the value, a number has no leading
zero, and a string holds no bare control character. The readers below return the value at the start
of a text and what follows it. Each takes a bound on the number of steps; `ofText?` gives one that
no text of its length can use up.
-/

namespace TraceRecovery.Json

/-- A text without the white space at its start. -/
def skipSpace (s : List Char) : List Char :=
  s.dropWhile fun c => c == ' ' || c == '\t' || c == '\n' || c == '\r'

/-- The string whose opening quote has been read. -/
def readString (s : List Char) : Option (Option String × List Char) :=
  (readBody s).map fun (units, after) => ((assemble? units).map String.ofList, after)

mutual

/-- The value at the start of a text. -/
def readValue : Nat → List Char → Option (Json × List Char)
  | 0, _ => none
  | steps + 1, s =>
    match s with
    | 'n' :: 'u' :: 'l' :: 'l' :: rest => some (.null, rest)
    | 't' :: 'r' :: 'u' :: 'e' :: rest => some (.bool true, rest)
    | 'f' :: 'a' :: 'l' :: 's' :: 'e' :: rest => some (.bool false, rest)
    | '"' :: rest => (readString rest).map fun (t, after) => (.string t, after)
    | '[' :: rest =>
      match skipSpace rest with
      | ']' :: after => some (.array [], after)
      | inner => (readElements steps inner).map fun (vs, after) => (.array vs, after)
    | '\x7b' :: rest =>
      match skipSpace rest with
      | '\x7d' :: after => some (.object [], after)
      | inner => (readMembers steps inner).map fun (ms, after) => (.object ms, after)
    | _ => (spanNumber s).map fun (literal, after) => (.number literal, after)

/-- One or more values with commas between them, up to and with the closing bracket. -/
def readElements : Nat → List Char → Option (List Json × List Char)
  | 0, _ => none
  | steps + 1, s => do
    let (v, s) ← readValue steps s
    match skipSpace s with
    | ',' :: rest => do
      let (vs, after) ← readElements steps (skipSpace rest)
      some (v :: vs, after)
    | ']' :: rest => some ([v], rest)
    | _ => none

/-- One or more members with commas between them, up to and with the closing brace. -/
def readMembers : Nat → List Char → Option (List (Option String × Json) × List Char)
  | 0, _ => none
  | steps + 1, s =>
    match s with
    | '"' :: rest => do
      let (k, s) ← readString rest
      match skipSpace s with
      | ':' :: rest => do
        let (v, s) ← readValue steps (skipSpace rest)
        match skipSpace s with
        | ',' :: rest => do
          let (ms, after) ← readMembers steps (skipSpace rest)
          some ((k, v) :: ms, after)
        | '\x7d' :: rest => some ([(k, v)], rest)
        | _ => none
      | _ => none
    | _ => none

end

/-- The value that a list of characters is the text of. -/
def ofChars? (s : List Char) : Option Json := do
  let (v, after) ← readValue (2 * s.length + 2) (skipSpace s)
  if (skipSpace after).isEmpty then some v else none

/-- The value that a string is the text of. -/
def ofText? (s : String) : Option Json := ofChars? s.toList

end TraceRecovery.Json
