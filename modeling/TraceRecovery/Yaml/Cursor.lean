import TraceRecovery.Yaml.Node

/-!
# Positions in a YAML text

Where the columns of values decide about nesting, a reader has to know its position. A `Cursor` is
the rest of a text with the line and the column where it begins. It also knows whether a block
collection may begin here, which is so at the start of a line and behind the mark of an entry.

A text is brought into the form with one kind of line feed first (`normalized?`), in which the two
separators of lines and paragraphs remain line ends of their own.
-/

namespace TraceRecovery.Yaml

/-- A position in a text. -/
structure Cursor where
  rest : List Char
  line : Nat
  column : Nat
  /-- Whether a block collection may begin here. -/
  isFresh : Bool

/-- Whether a character ends a line. -/
def isBreak (c : Char) : Bool := c == '\n' || c == '\u2028' || c == '\u2029'

/-- Whether a character is a space or a tab. -/
def isGap (c : Char) : Bool := c == ' ' || c == '\t'

/-- Whether a word ends here: at white space or at the end of the text. -/
def endsWord : List Char → Bool
  | [] => true
  | c :: _ => isGap c || isBreak c

/-- Whether a character may stand in a document. -/
def isAllowed (c : Char) : Bool :=
  let n := c.toNat
  n == 0x09 || n == 0x0a || n == 0x0d || (0x20 ≤ n && n ≤ 0x7e) || n == 0x85 ||
    (0xa0 ≤ n && n ≤ 0xfffd) || 0x10000 ≤ n

/-- A text with one kind of line feed. -/
def withLineFeeds : List Char → List Char
  | [] => []
  | '\r' :: '\n' :: rest => '\n' :: withLineFeeds rest
  | '\r' :: rest => '\n' :: withLineFeeds rest
  | '\u0085' :: rest => '\n' :: withLineFeeds rest
  | c :: rest => c :: withLineFeeds rest

/-- A text without the mark that tells its encoding, and with one kind of line feed. Control
characters are refused. -/
def normalized? (s : List Char) : Option (List Char) :=
  if s.all isAllowed then
    some (withLineFeeds (match s with
      | '\ufeff' :: rest => rest
      | s => s))
  else none

namespace Cursor

/-- The position at the start of a text. -/
def start (s : List Char) : Cursor := ⟨s, 0, 0, true⟩

/-- The position some characters further on in the line. -/
def advance (c : Cursor) (count : Nat) : Cursor :=
  { c with rest := c.rest.drop count, column := c.column + count }

/-- The same position with another answer to whether a block collection may begin here. -/
def withFresh (c : Cursor) (isFresh : Bool) : Cursor := { c with isFresh }

/-- The position behind white space, line ends and comments. Inside brackets line ends mean nothing.
Outside of them a tab is no white space where a block collection may begin. -/
def skipFrom (inBrackets inComment : Bool) (line column : Nat) (isFresh : Bool) :
    List Char → Cursor
  | [] => ⟨[], line, column, isFresh⟩
  | c :: rest =>
    if isBreak c then skipFrom inBrackets false (line + 1) 0 (isFresh || !inBrackets) rest
    else if inComment || c == ' ' || (c == '\t' && (inBrackets || !isFresh)) then
      skipFrom inBrackets inComment line (column + 1) isFresh rest
    else if c == '#' then skipFrom inBrackets true line (column + 1) isFresh rest
    else ⟨c :: rest, line, column, isFresh⟩

/-- The position of the next character that is no white space and in no comment. -/
def skip (inBrackets : Bool) (c : Cursor) : Cursor :=
  skipFrom inBrackets false c.line c.column c.isFresh c.rest

/-- Whether the text begins with a character three times, as a word of its own. -/
def startsMarker (mark : Char) : List Char → Bool
  | a :: b :: c :: rest => a == mark && b == mark && c == mark && endsWord rest
  | _ => false

/-- Whether a mark for the start or the end of a document stands in a column of a text. -/
def isMarker (column : Nat) (s : List Char) : Bool :=
  column == 0 && (startsMarker '-' s || startsMarker '.' s)

/-- Whether the document ends here. -/
def atEnd (c : Cursor) : Bool := c.rest.isEmpty || isMarker c.column c.rest

/-- Whether a character stands here as a word of its own, as the mark of an entry does. -/
def atMark (c : Cursor) (mark : Char) : Bool :=
  match c.rest with
  | d :: rest => d == mark && endsWord rest
  | [] => false

end Cursor

end TraceRecovery.Yaml
