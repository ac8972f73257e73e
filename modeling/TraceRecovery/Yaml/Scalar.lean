import TraceRecovery.Json.Escape
import TraceRecovery.Yaml.Cursor

/-!
# Texts in a YAML document

The five ways of writing a text: plain, in single or double quotes, and as a block that keeps or
folds its lines. Where a text goes on over several lines, a single line end becomes a space and of
several the first is dropped; the white space around them is dropped too. `Gap` holds the white
space since the last character, until it is known whether it belongs to the text.
-/

namespace TraceRecovery.Yaml

/-- White space inside a text, the last character first. -/
inductive Gap where
  /-- Spaces and tabs within a line. -/
  | blanks (s : List Char)
  /-- Line ends. An escaped line end comes before all of them and leaves nothing itself. -/
  | lines (escaped : Bool) (breaks : List Char)

namespace Gap

/-- No white space. -/
def none : Gap := .blanks []

/-- What the white space becomes in the text. -/
def folded : Gap → List Char
  | .blanks s => s.reverse
  | .lines true breaks => breaks.reverse
  | .lines false breaks =>
    match breaks.reverse with
    | ['\n'] => [' ']
    | '\n' :: rest => rest
    | all => all

/-- The white space with a space or a tab behind it. -/
def addBlank (c : Char) : Gap → Gap
  | .blanks s => .blanks (c :: s)
  | g => g

/-- The white space with a line end behind it. -/
def addBreak (c : Char) : Gap → Gap
  | .blanks _ => .lines false [c]
  | .lines escaped breaks => .lines escaped (c :: breaks)

/-- Whether there are line ends. -/
def hasLines : Gap → Bool
  | .blanks _ => false
  | .lines _ _ => true

/-- Whether there is nothing at all. -/
def isNone : Gap → Bool
  | .blanks [] => true
  | _ => false

/-- A reversed text with the white space behind it. -/
def joinTo (g : Gap) (text : List Char) : List Char := g.folded.reverse ++ text

end Gap

/-- A text that has been read, and the position behind it. -/
abbrev ScalarResult := Option (String × Cursor)

/-! ## Plain texts -/

/-- The characters that have a meaning of their own at the start of a value. -/
def indicators : List Char := "-?:,[]\x7b\x7d#&*!|>'\"%@\x60".toList

/-- The characters that enclose and separate values inside brackets. -/
def brackets : List Char := ",[]\x7b\x7d".toList

/-- Whether a plain text can begin with a character that the given text follows. -/
def startsPlain (inBrackets : Bool) (c : Char) (next : List Char) : Bool :=
  if isGap c || isBreak c then false
  else if !indicators.contains c then true
  else if c = '-' then !endsWord next
  else !inBrackets && (c == '?' || c == ':') && !endsWord next

/-- Whether a plain text ends before a character that the given text follows. -/
def endsPlain (inBrackets : Bool) (c : Char) (next : List Char) : Bool :=
  (c == ':' && endsWord next) || (inBrackets && brackets.contains c)

/-- Whether a colon stands where inside brackets it can neither belong to a plain text nor end
one. -/
def isStrayColon (inBrackets : Bool) (c : Char) (next : List Char) : Bool :=
  inBrackets && c == ':' && next.head?.any fun d => d == '?' || brackets.contains d

/-- Reads on in a plain text, of which the part before the white space is given reversed. Outside of
brackets a line that begins left of `floor` does not belong to it. -/
def plainFrom (inBrackets : Bool) (floor : Nat) (text : List Char) (gap : Gap)
    (line column : Nat) : List Char → ScalarResult
  | [] => some (String.ofList text.reverse, ⟨[], line, column, gap.hasLines⟩)
  | c :: rest =>
    if isBreak c then
      plainFrom inBrackets floor text (gap.addBreak c) (line + 1) 0 rest
    else if isGap c then
      if gap.hasLines && c == '\t' && column < floor then none
      else plainFrom inBrackets floor text (gap.addBlank c) line (column + 1) rest
    else
      let leaves := !gap.isNone &&
        ((gap.hasLines && !inBrackets && column < floor) || c == '#' ||
          Cursor.isMarker column (c :: rest))
      if leaves then
        some (String.ofList text.reverse, ⟨c :: rest, line, column, gap.hasLines⟩)
      else if isStrayColon inBrackets c rest then none
      else if endsPlain inBrackets c rest then
        some (String.ofList text.reverse, ⟨c :: rest, line, column, gap.hasLines⟩)
      else plainFrom inBrackets floor (c :: gap.joinTo text) .none line (column + 1) rest

/-- The plain text at a position. -/
def readPlain (inBrackets : Bool) (floor : Nat) (c : Cursor) : ScalarResult :=
  plainFrom inBrackets floor [] .none c.line c.column c.rest

/-! ## Quoted texts -/

/-- Reads on in a text in single quotes, in which a quote is written twice. -/
def singleFrom (text : List Char) (gap : Gap) (line column : Nat) : List Char → ScalarResult
  | [] => none
  | '\'' :: '\'' :: rest =>
    singleFrom ('\'' :: gap.joinTo text) .none line (column + 2) rest
  | c :: rest =>
    if c = '\'' then
      some (String.ofList (gap.joinTo text).reverse, ⟨rest, line, column + 1, false⟩)
    else if isBreak c then singleFrom text (gap.addBreak c) (line + 1) 0 rest
    else if isGap c then singleFrom text (gap.addBlank c) line (column + 1) rest
    else if Cursor.isMarker column (c :: rest) then none
    else singleFrom (c :: gap.joinTo text) .none line (column + 1) rest

/-- What a character behind a backslash stands for. -/
def escape? : Char → Option Char
  | '0' => some '\x00'
  | 'a' => some '\x07'
  | 'b' => some '\x08'
  | 't' => some '\t'
  | '\t' => some '\t'
  | 'n' => some '\n'
  | 'v' => some '\x0b'
  | 'f' => some '\x0c'
  | 'r' => some '\r'
  | 'e' => some '\x1b'
  | ' ' => some ' '
  | '"' => some '"'
  | '/' => some '/'
  | '\\' => some '\\'
  | 'N' => some '\u0085'
  | '_' => some '\u00a0'
  | 'L' => some '\u2028'
  | 'P' => some '\u2029'
  | _ => none

/-- How many hexadecimal digits follow a letter behind a backslash. -/
def escapeWidth? : Char → Option Nat
  | 'x' => some 2
  | 'u' => some 4
  | 'U' => some 8
  | _ => none

/-- The character with a code, unless the code is that of half of a surrogate pair or too large. -/
def charOfCode? (n : Nat) : Option Char :=
  if h : n.isValidChar then some (Char.ofNatAux n h) else none

/-- Where in an escape reading stands. -/
inductive EscapeState where
  /-- In none. -/
  | outside
  /-- Behind a backslash. -/
  | behindBackslash
  /-- In a code, of which some digits are left. -/
  | inCode (left code : Nat)

/-- Reads on in a text in double quotes, in which escapes begin with a backslash. -/
def doubleFrom (state : EscapeState) (text : List Char) (gap : Gap) (line column : Nat) :
    List Char → ScalarResult
  | [] => none
  | c :: rest =>
    match state with
    | .outside =>
      if c = '"' then
        some (String.ofList (gap.joinTo text).reverse, ⟨rest, line, column + 1, false⟩)
      else if isBreak c then doubleFrom .outside text (gap.addBreak c) (line + 1) 0 rest
      else if isGap c then doubleFrom .outside text (gap.addBlank c) line (column + 1) rest
      else if Cursor.isMarker column (c :: rest) then none
      else if c = '\\' then
        doubleFrom .behindBackslash (gap.joinTo text) .none line (column + 1) rest
      else doubleFrom .outside (c :: gap.joinTo text) .none line (column + 1) rest
    | .behindBackslash =>
      if isBreak c then doubleFrom .outside text (.lines true []) (line + 1) 0 rest
      else match escape? c, escapeWidth? c with
        | some d, _ => doubleFrom .outside (d :: text) .none line (column + 1) rest
        | none, some width => doubleFrom (.inCode width 0) text .none line (column + 1) rest
        | none, none => none
    | .inCode left code =>
      match Json.hexValue? c with
      | none => none
      | some digit =>
        let code := 16 * code + digit
        if left ≤ 1 then
          match charOfCode? code with
          | some d => doubleFrom .outside (d :: text) .none line (column + 1) rest
          | none => none
        else doubleFrom (.inCode (left - 1) code) text .none line (column + 1) rest

/-- The text in single quotes whose opening quote stands at a position. -/
def readSingle (c : Cursor) : ScalarResult :=
  singleFrom [] .none c.line (c.column + 1) (c.rest.drop 1)

/-- The text in double quotes whose opening quote stands at a position. -/
def readDouble (c : Cursor) : ScalarResult :=
  doubleFrom .outside [] .none c.line (c.column + 1) (c.rest.drop 1)

/-! ## Blocks -/

/-- What becomes of the line ends behind a block. -/
inductive Chomping where
  /-- The first is kept. -/
  | clip
  /-- None is kept. -/
  | strip
  /-- All are kept. -/
  | keep
deriving DecidableEq

/-- How a block is written, as the marks behind its first character say. -/
structure BlockStyle where
  chomping : Chomping
  /-- How far the lines are indented, if that is told. -/
  increment : Option Nat

/-- What becomes of line ends by a mark. -/
def chomping? : Char → Option Chomping
  | '+' => some .keep
  | '-' => some .strip
  | _ => none

/-- An indentation of one to nine columns. -/
def increment? (c : Char) : Option Nat :=
  if c.isDigit && c != '0' then some (c.toNat - 48) else none

/-- The marks of a block, and the text behind them: one for line ends, one for the indentation,
both in either order, or none. -/
def readBlockStyle : List Char → BlockStyle × List Char
  | a :: b :: rest =>
    match chomping? a, increment? a, chomping? b, increment? b with
    | some ch, _, _, some n => (⟨ch, some n⟩, rest)
    | _, some n, some ch, _ => (⟨ch, some n⟩, rest)
    | some ch, _, _, _ => (⟨ch, none⟩, b :: rest)
    | _, some n, _, _ => (⟨.clip, some n⟩, b :: rest)
    | _, _, _, _ => (⟨.clip, none⟩, a :: b :: rest)
  | [a] =>
    match chomping? a, increment? a with
    | some ch, _ => (⟨ch, none⟩, [])
    | _, some n => (⟨.clip, some n⟩, [])
    | _, _ => (⟨.clip, none⟩, [a])
  | [] => (⟨.clip, none⟩, [])

/-- Whether only white space and a comment are left of a line. -/
def isRestOfLine (s : List Char) : Bool :=
  match s.dropWhile isGap with
  | [] => true
  | c :: _ => c == '#' || isBreak c

/-- Line ends between the lines of a block. -/
structure BlockGap where
  /-- The line ends, the last first. -/
  breaks : List Char
  /-- The greatest column that was reached. -/
  widest : Nat
  cursor : Cursor

/-- The position at the next line of a block that is not empty. Spaces are skipped up to the
indentation, or all of them if that is not known. -/
def blockGapFrom (indent : Option Nat) (breaks : List Char) (widest line column : Nat) :
    List Char → Option BlockGap
  | [] => some ⟨breaks, max widest column, ⟨[], line, column, true⟩⟩
  | c :: rest =>
    let isLeft := indent.all (column < ·)
    if c = ' ' && isLeft then blockGapFrom indent breaks widest line (column + 1) rest
    else if c = '\t' && isLeft then none
    else if isBreak c then
      blockGapFrom indent (c :: breaks) (max widest column) (line + 1) 0 rest
    else some ⟨breaks, max widest column, ⟨c :: rest, line, column, true⟩⟩

/-- What stands between two lines of a block: the end of the first line, and the empty lines. In a
folded block a line end between two lines that begin with no white space becomes a space, or
nothing if empty lines follow. -/
def blockJoint (folds : Bool) (lineEnd breaks : List Char) (lastIndented nextIndented : Bool) :
    List Char :=
  if folds && lineEnd.head? == some '\n' && !lastIndented && !nextIndented then
    if breaks.isEmpty then [' '] else breaks
  else lineEnd ++ breaks

/-- The text of a block so far, reversed, and what is not yet known to belong to it. -/
structure BlockText where
  text : List Char
  lineEnd : List Char
  /-- The line ends of empty lines, the last first. -/
  breaks : List Char
  isIndented : Bool

/-- Reads on in a block, line by line; there are at most `lines` of them. -/
def blockLinesFrom (folds : Bool) (indent : Nat) (b : BlockText) (c : Cursor) :
    Nat → Option (BlockText × Cursor)
  | 0 => some (b, c)
  | lines + 1 =>
    if c.column = indent ∧ ¬c.rest.isEmpty then do
      let isIndented := c.rest.head?.any isGap
      let joint := blockJoint folds b.lineEnd b.breaks.reverse b.isIndented isIndented
      let (content, rest) := c.rest.span fun d => !isBreak d
      let text := content.reverse ++ (joint.reverse ++ b.text)
      let (lineEnd, next) : List Char × Cursor := match rest with
        | d :: after => ([d], ⟨after, c.line + 1, 0, true⟩)
        | [] => ([], ⟨[], c.line, c.column + content.length, true⟩)
      let gap ← blockGapFrom (some indent) [] 0 next.line next.column next.rest
      blockLinesFrom folds indent ⟨text, lineEnd, gap.breaks, isIndented⟩ gap.cursor lines
    else some (b, c)

/-- The text of a block whose line ends are treated as its style says. -/
def BlockText.finish (b : BlockText) : Chomping → String
  | .strip => String.ofList b.text.reverse
  | .clip => String.ofList (b.text.reverse ++ b.lineEnd)
  | .keep => String.ofList (b.text.reverse ++ b.lineEnd ++ b.breaks.reverse)

/-- The block whose first character stands at a position, inside a value whose parts begin at
`floor` or right of it. -/
def readBlock (folds : Bool) (floor : Nat) (c : Cursor) : ScalarResult := do
  let (style, rest) := readBlockStyle (c.rest.drop 1)
  if !isRestOfLine rest then none
  else
    let body := (rest.dropWhile fun d => !isBreak d).drop 1
    let told := style.increment.map (floor - 1 + ·)
    let gap ← blockGapFrom told [] 0 (c.line + 1) 0 body
    let indent := told.getD (max (max gap.widest floor) 1)
    let (b, after) ←
      blockLinesFrom folds indent ⟨[], [], gap.breaks, false⟩ gap.cursor (body.length + 1)
    some (b.finish style.chomping, after)

end TraceRecovery.Yaml
