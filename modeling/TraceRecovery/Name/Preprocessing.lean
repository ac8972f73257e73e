import TraceRecovery.Name.Words
import TraceRecovery.Text.Blank

/-!
# Reading a name

The three ways of turning a name into words before it is compared: as a single word, split, or
split and rid of stop words. Filtering never empties a name: one that consists of stop words alone
keeps them.
-/

namespace TraceRecovery.Name

open Text

/-- How a name becomes a list of words. -/
inductive Preprocessing where
  /-- The whole name in lower case is one word. -/
  | whole
  /-- The name is split into its words. -/
  | split
  /-- The name is split and its stop words are dropped. -/
  | splitFiltered
deriving DecidableEq, Repr

/-- The name of a way of reading in settings and labels. -/
def Preprocessing.name : Preprocessing → String
  | .whole => "none"
  | .split => "split"
  | .splitFiltered => "split_filtered"

/-- Reads the exact name of a way of reading. -/
def Preprocessing.ofName? : String → Option Preprocessing
  | "none" => some .whole
  | "split" => some .split
  | "split_filtered" => some .splitFiltered
  | _ => none

/-- Reads the name of a way of reading in any case, with white space around it. -/
def Preprocessing.ofText? (text : String) : Except String Preprocessing :=
  match lower (trim text) with
  | "none" => .ok .whole
  | "split" => .ok .split
  | "split_filtered" | "splitfiltered" => .ok .splitFiltered
  | other => .error s!"unknown preprocessing method: {other}"

theorem Preprocessing.ofName?_name (p : Preprocessing) : ofName? p.name = some p := by
  cases p <;> rfl

/-- The stop words that are dropped where none are named. -/
def defaultStopWords : List String :=
  ["a", "an", "the", "of", "and", "for", "impl", "default", "abstract"]

/-- A way of reading names, with the stop words in lower case. -/
structure Preprocessor where
  method : Preprocessing
  stopWords : List String
deriving DecidableEq

/-- The preprocessor with the usual stop words. -/
def Preprocessor.ofMethod (method : Preprocessing) : Preprocessor := ⟨method, defaultStopWords⟩

/-- The preprocessor with other stop words, which are compared in lower case. -/
def Preprocessor.withStopWords (p : Preprocessor) (stopWords : List String) : Preprocessor :=
  { p with stopWords := stopWords.map lower }

/-- The words of a name as the preprocessor reads it. -/
def Preprocessor.words (p : Preprocessor) (name : String) : List String :=
  match p.method with
  | .whole =>
    let whole := lower (trim name)
    if whole.isEmpty then [] else [whole]
  | .split => Name.words name
  | .splitFiltered =>
    let kept := wordsExcept p.stopWords.contains name
    if kept.isEmpty then Name.words name else kept

end TraceRecovery.Name
