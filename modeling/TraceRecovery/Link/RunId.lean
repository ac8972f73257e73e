import TraceRecovery.Json.Escape

/-!
# Run ids

A run is named by 128 bits, written as 32 hexadecimal digits in five groups.
-/

namespace TraceRecovery

/-- The name of a run. -/
structure RunId where
  bits : BitVec 128
deriving DecidableEq, Repr

namespace RunId

/-- The sizes of the groups of digits. -/
def groups : List Nat := [8, 4, 4, 4, 12]

/-- The 32 digits. -/
def digits (id : RunId) : List Char :=
  (List.range 32).map fun i => Json.hexDigit (id.bits.toNat / Nat.pow 16 (31 - i) % 16)

/-- Digits with a hyphen between each two groups. -/
def hyphenated : List Nat → List Char → List Char
  | [], ds => ds
  | [_], ds => ds
  | n :: ns, ds => ds.take n ++ '-' :: hyphenated ns (ds.drop n)

/-- The text of a run id: small digits, with hyphens. -/
def render (id : RunId) : String := String.ofList (hyphenated groups id.digits)

/-- The digits of a text in groups; the hyphens must stand exactly between the groups. -/
def ungrouped? : List Nat → List Char → Option (List Char)
  | [], s => if s.isEmpty then some [] else none
  | [n], s => if s.length = n then some s else none
  | n :: ns, s =>
    match s.drop n with
    | '-' :: rest => (ungrouped? ns rest).map (s.take n ++ ·)
    | _ => none

/-- The run id with 32 digits in either case. -/
def ofDigits? (ds : List Char) : Option RunId :=
  if ds.length = 32 then
    (ds.mapM Json.hexValue?).map fun vs => ⟨BitVec.ofNat 128 (vs.foldl (fun n v => 16 * n + v) 0)⟩
  else none

/-- What stands behind a text at the start of another one. -/
def dropText? : List Char → List Char → Option (List Char)
  | [], s => some s
  | c :: cs, d :: s => if c = d then dropText? cs s else none
  | _ :: _, [] => none

/-- Reads a run id: digits with or without hyphens; with hyphens they may stand in braces or behind
`urn:uuid:`. -/
def ofText? (text : String) : Option RunId :=
  let s := text.toList
  match s.length with
  | 32 => ofDigits? s
  | 36 => ungrouped? groups s >>= ofDigits?
  | 38 =>
    match s.head?, s.getLast? with
    | some '\x7b', some '\x7d' => ungrouped? groups (s.drop 1).dropLast >>= ofDigits?
    | _, _ => none
  | 45 => dropText? "urn:uuid:".toList s >>= ungrouped? groups >>= ofDigits?
  | _ => none

/-- The run id made of random bits: the digits that tell how it was made say so. -/
def ofRandom (bits : BitVec 128) : RunId :=
  let kept := bits &&& ~~~(BitVec.ofNat 128 (0xf * Nat.pow 2 76 + 3 * Nat.pow 2 62))
  ⟨kept ||| BitVec.ofNat 128 (4 * Nat.pow 2 76 + 2 * Nat.pow 2 62)⟩

end RunId

end TraceRecovery
