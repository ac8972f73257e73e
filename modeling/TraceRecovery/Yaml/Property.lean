import TraceRecovery.Decimal.Reader
import TraceRecovery.Yaml.Scalar

/-!
# Names, tags and directives in a YAML document

A value may be named by an anchor, which later aliases refer to, and may have a tag. A tag is
written in full between angle brackets, or with a handle for its first part; directives in front of
a document declare handles. All readers share the state of the document, `Reading`: the position, the
named values and the declared handles.
-/

namespace TraceRecovery.Yaml

/-- The state of reading a document. -/
structure Reading where
  cursor : Cursor
  /-- The named values, the latest first. A value that is not complete stands as an empty
  mapping. -/
  named : List (String × Node)
  /-- The declared handles and what they stand for. -/
  handles : List (String × String)

/-- A reader of a part of a document, which fails where the text is no document. -/
abbrev Reader := StateT Reading Option

/-- The position. -/
def here : Reader Cursor := return (← get).cursor

/-- Goes to a position. -/
def goTo (c : Cursor) : Reader Unit := modify fun r => { r with cursor := c }

/-- The text from the position on. -/
def rest : Reader (List Char) := return (← here).rest

/-- The next character. -/
def peek : Reader (Option Char) := return (← rest).head?

/-- Goes some characters further. -/
def advance (count : Nat) : Reader Unit := do goTo ((← here).advance count)

/-- Says whether a block collection may begin at the position. -/
def setFresh (isFresh : Bool) : Reader Unit := do goTo ((← here).withFresh isFresh)

/-- Goes to the next character that is no white space and in no comment. -/
def skip (inBrackets : Bool) : Reader Unit := do goTo ((← here).skip inBrackets)

/-- Goes behind a text. -/
def takeScalar (read : Cursor → ScalarResult) : Reader String := do
  let (text, after) ← (read (← here) : Option (String × Cursor))
  goTo after
  return text

/-- The longest text of characters of a kind. -/
def takeWhile (p : Char → Bool) : Reader (List Char) := do
  let s := (← rest).takeWhile p
  advance s.length
  return s

/-- Whether a character may stand in a name. -/
def isNameChar (c : Char) : Bool := c.isAlphanum || c == '_' || c == '-'

/-- Whether a name may end before a text. -/
def endsName (s : List Char) : Bool :=
  endsWord s || s.head?.any "?:,]\x7d%@\x60".toList.contains

/-- The name behind the mark of an anchor or an alias. -/
def readName : Reader String := do
  advance 1
  let name ← takeWhile isNameChar
  if name.isEmpty || !endsName (← rest) then failure
  setFresh false
  return String.ofList name

/-- The value with a name. -/
def lookUp (name : String) : Reader Node := do
  match (← get).named.lookup name with
  | some node => return node
  | none => failure

/-- Names a value. -/
def define (name : String) (node : Node) : Reader Unit :=
  modify fun r => { r with named := (name, node) :: r.named }

/-! ## Tags -/

/-- Whether a character may stand in a tag. -/
def isTagChar (c : Char) : Bool := isNameChar c || ";/?:@&=+$.!~*'()".toList.contains c

/-- Whether a character may stand in a tag that is written in full. -/
def isFullTagChar (c : Char) : Bool := isTagChar c || ",[]".toList.contains c

/-- The characters of a tag, with codes behind percent signs replaced by what they stand for. Codes
beyond ASCII all become the same character. -/
def tagChars (p : Char → Bool) : List Char → Option (List Char × List Char)
  | [] => some ([], [])
  | '%' :: a :: b :: s => do
    let high ← Json.hexValue? a
    let low ← Json.hexValue? b
    let code := 16 * high + low
    let (cs, after) ← tagChars p s
    some ((if code < 0x80 then Char.ofNat code else '\ufffd') :: cs, after)
  | c :: s =>
    if c = '%' then none
    else if p c then (tagChars p s).map fun (cs, after) => (c :: cs, after)
    else some ([], c :: s)

/-- The characters of a tag at the position. -/
def takeTagChars (p : Char → Bool) : Reader (List Char) := do
  let s ← rest
  let (cs, after) ← (tagChars p s : Option (List Char × List Char))
  advance (s.length - after.length)
  return cs

/-- What a handle stands for. -/
def handlePrefix (handle : String) : Reader String := do
  match (← get).handles.lookup handle with
  | some text => return text
  | none =>
    match handle with
    | "!" => return "!"
    | "!!" => return "tag:yaml.org,2002:"
    | _ => failure

/-- A tag that is written in full, between angle brackets. -/
def readFullTag : Reader String := do
  advance 2
  let cs ← takeTagChars isFullTagChar
  if cs.isEmpty || (← peek) != some '>' then failure
  advance 1
  return String.ofList cs

/-- A tag with a handle, or an exclamation mark that stands alone. -/
def readShortTag : Reader String := do
  advance 1
  let name ← takeWhile isNameChar
  if (← peek) == some '!' then
    advance 1
    let suffix ← takeTagChars isTagChar
    if suffix.isEmpty then failure
    return (← handlePrefix ("!" ++ String.ofList name ++ "!")) ++ String.ofList suffix
  else
    let suffix := name ++ (← takeTagChars isTagChar)
    if suffix.isEmpty then return "!"
    return (← handlePrefix "!") ++ String.ofList suffix

/-- The tag at the position. -/
def readTag (inBrackets : Bool) : Reader String := do
  let tag ← if (← rest).take 2 = ['!', '<'] then readFullTag else readShortTag
  let after ← rest
  if endsWord after || (inBrackets && after.head? == some ',') then
    setFresh false
    return tag
  else failure

/-! ## Properties -/

/-- The name and the tag of a value. -/
structure Properties where
  anchor : Option String
  tag : Option String

namespace Properties

/-- Neither name nor tag. -/
def none : Properties := ⟨.none, .none⟩

/-- Whether there is neither name nor tag. -/
def isNone (p : Properties) : Bool := p.anchor.isNone && p.tag.isNone

end Properties

/-- A name, unless there is one. -/
def readAnchor (p : Properties) : Reader Properties := do
  if p.anchor.isSome then failure
  let name ← readName
  define name (.mapping [])
  return { p with anchor := some name }

/-- The properties in front of a value, and the white space behind them: a name and a tag in either
order, or one of them, or none. -/
def readProperties (inBrackets : Bool) (p : Properties) : Nat → Reader Properties
  | 0 => return p
  | more + 1 => do
    match ← peek with
    | some '&' =>
      let p ← readAnchor p
      skip inBrackets
      readProperties inBrackets p more
    | some '!' =>
      if p.tag.isSome then failure
      let tag ← readTag inBrackets
      skip inBrackets
      readProperties inBrackets { p with tag := some tag } more
    | _ => return p

/-- The value with its properties. -/
def attach (p : Properties) (node : Node) : Reader Node := do
  let node := node.withTag p.tag
  match p.anchor with
  | some name =>
    define name node
    return node
  | none => return node

/-! ## Directives -/

/-- What is known of the directives in front of a document. -/
structure Directives where
  hasVersion : Bool
  /-- The handles that have been declared. -/
  declared : List String

/-- The rest of a line, on which there is nothing but white space and a comment. -/
def endLine : Reader Unit := do
  if isRestOfLine (← rest) then skip false else failure

/-- The white space within a line, of which there must be some. -/
def takeGap : Reader Unit := do
  if (← takeWhile isGap).isEmpty then failure

/-- A number of a version. -/
def readVersionNumber : Reader Nat := do
  let ds ← takeWhile Char.isDigit
  if ds.isEmpty || 9 < ds.length then failure
  return Decimal.valueOf 0 ds

/-- The version that a directive asks for. -/
def readVersion (d : Directives) : Reader Directives := do
  takeGap
  let major ← readVersionNumber
  if (← peek) != some '.' then failure
  advance 1
  let minor ← readVersionNumber
  if d.hasVersion || major != 1 || (minor != 1 && minor != 2) then failure
  endLine
  return { d with hasVersion := true }

/-- The handle that a directive declares. -/
def readHandle (d : Directives) : Reader Directives := do
  takeGap
  if (← peek) != some '!' then failure
  advance 1
  let name ← takeWhile isNameChar
  let isClosed := (← peek) == some '!'
  if isClosed then advance 1
  if !isClosed && !name.isEmpty then failure
  let handle := "!" ++ String.ofList name ++ (if isClosed then "!" else "")
  takeGap
  let text ← takeTagChars isFullTagChar
  if text.isEmpty || d.declared.contains handle || !endsWord (← rest) then failure
  modify fun r => { r with handles := (handle, String.ofList text) :: r.handles }
  endLine
  return { d with declared := handle :: d.declared }

/-- The directives at the position, and the white space behind them. Each takes a line, so there are
at most `lines` of them. -/
def readDirectives (d : Directives) : Nat → Reader Unit
  | 0 => return
  | lines + 1 => do
    let c ← here
    if c.column = 0 ∧ c.rest.head? = some '%' then
      advance 1
      let name ← takeWhile isNameChar
      match String.ofList name with
      | "YAML" => readDirectives (← readVersion d) lines
      | "TAG" => readDirectives (← readHandle d) lines
      | _ => failure
    else return

end TraceRecovery.Yaml
