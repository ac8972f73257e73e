import TraceRecovery.Text.HiddenData

/-!
# Quoted texts

A text between quotes, in which whatever could be mistaken is spelled out: quotes, backslashes, line
ends and tabs by a letter behind a backslash, and every other character that is not visible where it
stands alone by its code point.
-/

namespace TraceRecovery.Text

/-- The letter that stands behind a backslash for a character that has one. -/
def quotedLetter? : Char → Option Char
  | '"' => some '"'
  | '\\' => some '\\'
  | '\n' => some 'n'
  | '\r' => some 'r'
  | '\t' => some 't'
  | '\x00' => some '0'
  | _ => none

/-- A character as it stands between quotes. -/
def quotedChar (c : Char) : List Char :=
  match quotedLetter? c with
  | some l => ['\\', l]
  | none =>
    if covers hiddenRuns c.toNat then
      ['\\', 'u', '\x7b'] ++ Nat.toDigits 16 c.toNat ++ ['\x7d']
    else [c]

/-- A text between quotes. -/
def quoted (s : String) : String := "\"" ++ String.ofList (s.toList.flatMap quotedChar) ++ "\""

end TraceRecovery.Text
