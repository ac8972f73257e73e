import TraceRecovery.Yaml.Property

/-!
# YAML documents

The readers of values. Inside brackets a value is a text or another pair of brackets, and line ends
mean nothing. Outside of brackets the columns decide: the entries of a mapping or a sequence begin
in one column, and what belongs to an entry stands right of it. Only the entries of a sequence that
is the value of a mapping may begin in the column of the mapping. A key without the mark `?` stands on
one line with its colon, at most 1024 columns in front of it.

Readers that call each other take a bound on the depth of their calls. `ofText?` gives one that no
text of its length can use up. It also says when a text is no single document.
-/

namespace TraceRecovery.Yaml

/-- The length that a key without mark and the white space behind it may have. -/
def keyLimit : Nat := 1024

/-- Whether a colon at a position can belong to a key that began at another one. -/
def isKeyEnd (start now : Cursor) : Bool :=
  start.line == now.line && now.column ≤ start.column + keyLimit

/-! ## Inside brackets -/

/-- Goes to the next value or mark inside brackets; the document must not end before it. -/
def skipInside : Reader Unit := do
  skip true
  if (← here).atEnd then failure

/-- Goes behind a mark inside brackets and to what follows. -/
def passMark : Reader Unit := do
  advance 1
  skipInside

/-- Whether an entry or the brackets end at the position. -/
def atClose : Reader Bool := do
  match ← peek with
  | some c => return c == ',' || c == ']' || c == '\x7d'
  | none => failure

/-- A text in one of the ways that are possible inside brackets as well as outside. -/
def readText (inBrackets : Bool) (floor : Nat) : Reader Node := do
  match ← rest with
  | '"' :: _ => return .scalar .quoted none (← takeScalar readDouble)
  | '\'' :: _ => return .scalar .quoted none (← takeScalar readSingle)
  | c :: next =>
    if startsPlain inBrackets c next then
      return .scalar .plain none (← takeScalar (readPlain inBrackets floor))
    else failure
  | [] => failure

mutual

/-- A value without properties that may stand in front of a colon: an alias, brackets or a text. -/
def readInline (inBrackets : Bool) (floor : Nat) : Nat → Reader Node
  | 0 => failure
  | depth + 1 => do
    match ← peek with
    | some '[' =>
      passMark
      let elements ← readElements floor depth
      setFresh false
      return .sequence elements
    | some '\x7b' =>
      passMark
      let entries ← readPairs floor depth
      setFresh false
      return .mapping entries
    | _ => readText inBrackets floor

/-- A value inside brackets. It may be left out behind properties. -/
def readInside (floor : Nat) : Nat → Reader Node
  | 0 => failure
  | depth + 1 => do
    match ← peek with
    | some '*' => do lookUp (← readName)
    | _ =>
      let p ← readProperties true .none 2
      if (← here).atEnd then failure
      if !p.isNone && ((← atClose) || (← peek) == some ':') then attach p .empty
      else attach p (← readInline true floor depth)

/-- The value behind a key inside brackets, if there is a colon at the position. -/
def readValueInside (floor : Nat) : Nat → Reader Node
  | 0 => failure
  | depth + 1 => do
    if (← peek) == some ':' then
      passMark
      if ← atClose then return .empty
      let node ← readInside floor depth
      skipInside
      return node
    else return .empty

/-- A key behind the mark `?` inside brackets, with its value. -/
def readMarkedPair (floor : Nat) : Nat → Reader (Node × Node)
  | 0 => failure
  | depth + 1 => do
    passMark
    let key ←
      if (← atClose) || (← peek) == some ':' then pure Node.empty
      else do
        let key ← readInside floor depth
        skipInside
        pure key
    return (key, ← readValueInside floor depth)

/-- The elements of a sequence up to its closing bracket. An element with a colon behind it is the
key of a mapping with a single entry. -/
def readElements (floor : Nat) : Nat → Reader (List Node)
  | 0 => failure
  | depth + 1 => do
    if (← peek) == some ']' then
      advance 1
      return []
    let element ←
      if (← peek) == some '?' then do
        let (key, value) ← readMarkedPair floor depth
        pure (Node.mapping [(key, value)])
      else do
        let start ← here
        let node ← readInside floor depth
        skipInside
        if (← peek) == some ':' && isKeyEnd start (← here) then
          pure (Node.mapping [(node, ← readValueInside floor depth)])
        else pure node
    match ← peek with
    | some ',' =>
      passMark
      return element :: (← readElements floor depth)
    | some ']' =>
      advance 1
      return [element]
    | _ => failure

/-- The entries of a mapping up to its closing brace. A key without colon has an empty value. -/
def readPairs (floor : Nat) : Nat → Reader (List (Node × Node))
  | 0 => failure
  | depth + 1 => do
    if (← peek) == some '\x7d' then
      advance 1
      return []
    let pair ←
      if (← peek) == some '?' then readMarkedPair floor depth
      else do
        let start ← here
        let key ← readInside floor depth
        skipInside
        if (← peek) == some ':' && !isKeyEnd start (← here) then failure
        pure (key, ← readValueInside floor depth)
    match ← peek with
    | some ',' =>
      passMark
      return pair :: (← readPairs floor depth)
    | some '\x7d' =>
      advance 1
      return [pair]
    | _ => failure

end

/-! ## Outside of brackets -/

/-- What stands at the position as the start of a value. -/
inductive Opening where
  /-- The value is left out: the text left of `floor` belongs to something else. -/
  | absent
  /-- The mark of an element of a sequence. -/
  | element
  /-- The mark of a key. -/
  | markedKey
  /-- A name or a tag. -/
  | property
  /-- A block, folded or not. -/
  | block (folds : Bool)
  /-- An alias, brackets or a text. -/
  | inline
deriving DecidableEq

/-- What stands at a position. The elements of a sequence may stand one column left of `floor` if
`outdents` says so. -/
def openingAt (floor : Nat) (outdents : Bool) (c : Cursor) : Opening :=
  if c.atEnd then .absent
  else if c.column < floor then
    if outdents && c.column + 1 == floor && c.atMark '-' then .element else .absent
  else if c.atMark '-' then .element
  else if c.atMark '?' then .markedKey
  else match c.rest.head? with
    | some '&' | some '!' => .property
    | some '|' => .block false
    | some '>' => .block true
    | _ => .inline

/-- A block, folded or not. -/
def readBlockNode (folds : Bool) (floor : Nat) : Reader Node := do
  let text ← takeScalar (readBlock folds floor)
  return .scalar (if folds then .quoted else .literal) none text

/-- An alias, brackets or a text outside of brackets. -/
def readSimple (floor depth : Nat) : Reader Node := do
  match ← peek with
  | some '*' => do lookUp (← readName)
  | _ => readInline false floor depth

/-- A value with the properties in front of it, all of which can be a key. Only the value itself may
be left out, in front of a colon. -/
def readKey (floor depth : Nat) : Reader Node := do
  match ← peek with
  | some '*' => do lookUp (← readName)
  | _ =>
    let p ← readProperties false .none 2
    if !p.isNone && (← here).atMark ':' then attach p .empty
    else attach p (← readInline false floor depth)

/-- Goes behind the colon of a key that began at a position. -/
def passColon (start : Cursor) : Reader Unit := do
  let now ← here
  if start.isFresh && now.atMark ':' && isKeyEnd start now then
    advance 1
    setFresh false
  else failure

mutual

/-- A value whose text begins at `floor` or right of it. The properties that were read on an earlier
line belong to it; if further ones follow, these belong to the first key of a mapping. -/
def readNode (floor : Nat) (outdents : Bool) (p : Properties) : Nat → Reader Node
  | 0 => failure
  | depth + 1 => do
    skip false
    let start ← here
    match openingAt floor outdents start with
    | .absent => attach p .empty
    | .element =>
      if !start.isFresh then failure
      attach p (.sequence (← readSequence start.column (start.column < floor) depth))
    | .markedKey =>
      if !start.isFresh then failure
      attach p (.mapping (← readMapping start.column depth))
    | .block folds => attach p (← readBlockNode folds floor)
    | .property => readWithProperties floor outdents p start depth
    | .inline =>
      let node ← readSimple floor depth
      let isAlias := start.rest.head? == some '*'
      readAfterKey start p (!isAlias) node depth
termination_by structural depth => depth

/-- A value that begins with properties. On the same line they belong to a key if a colon follows;
in front of a line end they belong to whatever follows. -/
def readWithProperties (floor : Nat) (outdents : Bool) (p : Properties) (start : Cursor) :
    Nat → Reader Node
  | 0 => failure
  | depth + 1 => do
    let own ← readProperties false .none 2
    let now ← here
    if now.line != start.line then
      if !p.isNone then failure
      readNode floor outdents own depth
    else match openingAt floor false now with
      | .absent =>
        if !p.isNone then failure
        attach own .empty
      | .block folds =>
        if !p.isNone then failure
        attach own (← readBlockNode folds floor)
      | .inline =>
        if now.rest.head? == some '*' then failure
        if now.atMark ':' then
          let key ← attach own .empty
          readAfterKey start p false key depth
        else
          let node ← attach own (← readInline false floor depth)
          readAfterKey start p p.isNone node depth
      | _ => failure
termination_by structural depth => depth

/-- What a value that has been read belongs to: it is the first key of a mapping if a colon follows
on the same line, else it stands for itself, if that is possible with the properties before it. -/
def readAfterKey (start : Cursor) (p : Properties) (mayStand : Bool) (node : Node) :
    Nat → Reader Node
  | 0 => failure
  | depth + 1 => do
    skip false
    let now ← here
    if now.line == start.line && now.atMark ':' then
      passColon start
      attach p (.mapping (← readEntry start.column node depth))
    else if mayStand || p.isNone then attach p node
    else failure
termination_by structural depth => depth

/-- The value of a key, behind its colon, and the entries that follow. -/
def readEntry (column : Nat) (key : Node) : Nat → Reader (List (Node × Node))
  | 0 => failure
  | depth + 1 => do
    let value ← readNode (column + 1) true .none depth
    return (key, value) :: (← readMapping column depth)
termination_by structural depth => depth

/-- The entries of a mapping whose keys stand in a column, from the position on. -/
def readMapping (column : Nat) : Nat → Reader (List (Node × Node))
  | 0 => failure
  | depth + 1 => do
    skip false
    let start ← here
    if start.atEnd || start.column < column then return []
    else if column < start.column then failure
    else if start.atMark '?' then
      if !start.isFresh then failure
      advance 1
      setFresh true
      let key ← readNode (column + 1) true .none depth
      skip false
      let now ← here
      if now.column == column && now.atMark ':' && !now.atEnd then
        if !now.isFresh then failure
        advance 1
        setFresh true
        readEntry column key depth
      else return (key, .empty) :: (← readMapping column depth)
    else
      let key ← readKey (column + 1) depth
      skip false
      passColon start
      readEntry column key depth
termination_by structural depth => depth

/-- The elements of a sequence whose marks stand in a column, from the position on. A sequence in
the column of the mapping around it ends where the next key begins. -/
def readSequence (column : Nat) (outdents : Bool) : Nat → Reader (List Node)
  | 0 => failure
  | depth + 1 => do
    skip false
    let start ← here
    if start.atEnd || start.column < column then return []
    else if column < start.column then failure
    else if start.atMark '-' then
      if !start.isFresh then failure
      advance 1
      setFresh true
      let element ← readNode (column + 1) false .none depth
      return element :: (← readSequence column outdents depth)
    else if outdents then return []
    else failure
termination_by structural depth => depth

end

/-! ## Whole texts -/

/-- The marks for the end of the document, behind which nothing may follow. Each takes a line, so
there are at most `lines` of them. -/
def readEnd : Nat → Reader Unit
  | 0 => failure
  | lines + 1 => do
    skip false
    let c ← here
    if c.rest.isEmpty then return
    else if c.column == 0 && Cursor.startsMarker '.' c.rest then
      advance 3
      setFresh false
      readEnd lines
    else failure

/-- The only document of a text; none if the text holds nothing but white space and comments. -/
def readDocument (bound : Nat) : Reader (Option Node) := do
  skip false
  let c ← here
  if c.rest.isEmpty then return none
  let isExplicit :=
    c.column == 0 && (c.rest.head? == some '%' || Cursor.startsMarker '-' c.rest)
  if isExplicit then
    readDirectives ⟨false, []⟩ bound
    let c ← here
    if !(c.column == 0 && Cursor.startsMarker '-' c.rest) then failure
    advance 3
    setFresh false
  else if c.atEnd then failure
  let node ← readNode 0 false .none bound
  readEnd bound
  return some node

/-- The value of the only document of a text, `none` for a text without document. There is no result
at all if the text is not well-formed. -/
def ofText? (text : String) : Option (Option Node) := do
  let s ← normalized? text.toList
  let (node, _) ← (readDocument (8 * s.length + 64)).run ⟨.start s, [], []⟩
  some node

end TraceRecovery.Yaml
