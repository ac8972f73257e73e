/-!
# YAML values

A YAML document as a tree of texts, sequences and mappings. What a text stands for is decided where
it is read: a text between quotes is never a number, and never stands for nothing.
-/

namespace TraceRecovery.Yaml

/-- How a text is written. -/
inductive Style where
  | plain
  /-- As a block that keeps its line ends. -/
  | literal
  /-- Between quotes, or as a block whose line ends are folded. -/
  | quoted
deriving DecidableEq, Repr

/-- A value in a document. -/
inductive Node where
  /-- A text, with the tag that was put on it. -/
  | scalar (style : Style) (tag : Option String) (text : String)
  | sequence (elements : List Node)
  | mapping (entries : List (Node × Node))

namespace Node

/-- The value where nothing is written. -/
def empty : Node := .scalar .plain none ""

instance : Inhabited Node := ⟨empty⟩

/-- Whether nothing is written, or a plain text without characters. -/
def isEmpty : Node → Bool
  | .scalar .plain _ text => text.isEmpty
  | _ => false

/-- The value with a tag. Tags on collections mean nothing here and are dropped. -/
def withTag (tag : Option String) : Node → Node
  | .scalar style old text => .scalar style (tag <|> old) text
  | other => other

end Node

end TraceRecovery.Yaml
