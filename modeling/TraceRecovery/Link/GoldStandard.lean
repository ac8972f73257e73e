import TraceRecovery.Csv
import TraceRecovery.Link.Basic
import TraceRecovery.Link.LinkPair
import TraceRecovery.Link.Metrics
import TraceRecovery.Text.Pieces

/-!
# Gold standards

The links that a correct run would have, as a set of pairs of ids. A gold standard may name a
directory in place of a unit; `enroll` replaces it by the units below it, so that entries can be
compared with links one by one. `confusion` compares them: the counts are sizes of sets, so
repeated links count once.
-/

namespace TraceRecovery

/-- The pairs that a correct run would link. -/
structure GoldStandard where
  pairs : SortedSet LinkPair

namespace GoldStandard

/-- The gold standard with the given pairs. -/
def ofPairs (pairs : List LinkPair) : GoldStandard := ⟨.ofList pairs⟩

/-- The gold standard without pairs. -/
def empty : GoldStandard := ⟨.empty⟩

/-- Whether a pair belongs to the gold standard. -/
def contains (g : GoldStandard) (p : LinkPair) : Bool := g.pairs.contains p

def size (g : GoldStandard) : Nat := g.pairs.size

/-- Whether two gold standards have the same pairs. -/
def same (g h : GoldStandard) : Bool := g.pairs.elements == h.pairs.elements

/-- The names of the columns that hold a pair. -/
def columns : List String := ["architecture_id", "code_id"]

/-- The pair that the fields of a row describe. -/
def pairOfFields? : List String → Option LinkPair
  | [item, unit] => some ⟨item, unit⟩
  | _ => none

/-- The gold standard that a table of comma-separated values describes. -/
def ofText (text : String) : Except TraceError GoldStandard :=
  match Csv.table? columns text >>= List.mapM pairOfFields? with
  | some pairs => .ok (ofPairs pairs)
  | none => .error (.csv "the text is no table of links")

/-! ## Directories -/

/-- The directories that an entry names, outermost first. -/
def directories (entry : String) : List String :=
  ((Text.cutAt '/' entry.toList).filter fun s => !s.isEmpty).map String.ofList

/-- The ids of the units below some directories. Naming no directory at all names no unit. -/
def unitsBelow (code : Code) (directories : List String) : List String :=
  if directories.isEmpty then []
  else (code.units.filter fun u => directories.isPrefixOf u.path).map CodeUnit.id

/-- What an entry stands for: the id of a unit for itself, a directory for the units below it, and
an entry that names neither for itself, as a link that cannot be found. -/
def expand (code : Code) (entry : String) : List String :=
  if (code.unit? entry).isSome then [entry]
  else
    let below := unitsBelow code (directories entry)
    if below.isEmpty then [entry] else below

/-- Refuses the first pair whose item is not in the architecture. -/
def ensureItems (architecture : Architecture) : List LinkPair → Except TraceError Unit
  | [] => .ok ()
  | p :: ps => do
    let _ ← architecture.item p.item
    ensureItems architecture ps

/-- The gold standard with every entry replaced by what it stands for. All items must be in the
architecture; of those that are not, the least id is reported. -/
def enroll (g : GoldStandard) (architecture : Architecture) (code : Code) :
    Except TraceError GoldStandard := do
  ensureItems architecture g.pairs.elements
  return ofPairs (g.pairs.elements.flatMap fun p => (expand code p.unit).map fun u => ⟨p.item, u⟩)

/-! ## Comparing links -/

/-- The pairs of ids that links connect. -/
def found (links : List TraceLink) : SortedSet LinkPair :=
  .ofList (links.map fun l => ⟨l.itemId, l.unitId⟩)

/-- The counts of some links among a number of candidates. There are no fewer candidates than
pairs that are found or correct; otherwise no candidate counts as rightly left out. -/
def confusion (links : List TraceLink) (g : GoldStandard) (candidates : Nat) : Confusion :=
  let found := found links
  let truePositives := found.elements.countP g.contains
  let falsePositives := found.size - truePositives
  let falseNegatives := g.size - truePositives
  ⟨truePositives, falsePositives, falseNegatives,
    candidates - (truePositives + falsePositives + falseNegatives)⟩

/-- The metrics of some links among a number of candidates. -/
def evaluate (links : List TraceLink) (g : GoldStandard) (candidates : Nat) : Metrics Float :=
  .ofConfusion (confusion links g candidates)

end GoldStandard

end TraceRecovery
