import TraceRecovery.Tree.Cancellation
import TraceRecovery.Tree.Draft

/-!
# Running a tree

A run takes the nodes of a tree wave by wave. Each node reads the published tables of its inputs,
gives a confidence to every candidate, and publishes its own table once that is sealed. What a
dependent node's base defines is carried over; its heuristic is asked only about the other
candidates. Cancellation is looked at before each node; a node that has begun is always finished.

Where the nodes of a wave are shared out among workers they take turns in some order, and the run
fails with the error of the first that fails in that order (`Tree.Turns`). The candidates of a node
may be shared out too. Scoring has no effects, so whether a node fails and what it publishes do not
depend on that. Which error is reported does where several candidates fail: workers may report any
of them, and here it is that of the first in the order of the space (`Node.run`). A run asks for
the state of cancellation in a monad of the caller's choice, as that depends on the time and on what
others do with the run's token (`Tree.runUnder`).
-/

namespace TraceRecovery

/-- The confidence that an aggregation gives a candidate from the tables of all children, which must
be sealed. -/
def Aggregation.evaluate (a : Aggregation) (children : List Table) (t : Candidate) :
    Except TraceError Confidence := do
  a.combine (← children.mapM fun c => do
    c.ensureSealed
    return c.get t)

namespace Node

/-- The published tables of a node's inputs. -/
def inputTables (n : Node) (b : Board) : Except TraceError (List Table) :=
  n.inputs.mapM fun i => b.get i n.label

/-- What a dependent node's base defines for a candidate. -/
def carriedOver (n : Node) (tables : List Table) (t : Candidate) : Option Confidence :=
  match n.isDependent, tables with
  | true, base :: _ => if (base.get t).isDefined then some (base.get t) else none
  | _, _ => none

/-- How a node itself scores candidates, given the tables of its inputs. -/
def ownScore (n : Node) (s : CandidateSpace) (tables : List Table) :
    Except TraceError (Candidate → Except TraceError Confidence) :=
  match n.kind with
  | .leaf h _ => do
    let c ← (Context.ofModels s.architecture s.code).withDependencies tables
    return fun t => h.score t c
  | .inner a _ => .ok (a.evaluate tables)

/-- The confidence of a candidate: what the base defines, else the node's own score. -/
def confidence (n : Node) (tables : List Table) (own : Candidate → Except TraceError Confidence)
    (t : Candidate) : Except TraceError Confidence :=
  match n.carriedOver tables t with
  | some c => .ok c
  | none => own t

/-- The sealed table of a node, given the tables published so far. If candidates fail, the error is
that of the first of them; workers that share them out may report another of them instead. -/
def run (n : Node) (s : CandidateSpace) (b : Board) : Except TraceError Table := do
  let tables ← n.inputTables b
  let own ← n.ownScore s tables
  let confidences ← s.candidates.mapM (n.confidence tables own)
  let table ← (Table.empty n.label).setAll (s.candidates.zip confidences)
  table.sealOver s

end Node

/-- The outcome of a run: the tables of all nodes that the root needs, and that of the root. -/
structure Evaluation where
  treeName : String
  root : NodeId
  rootLabel : String
  space : CandidateSpace
  board : Board
  result : Table

namespace Tree

/-- Runs one node and publishes its table, unless the run has been cancelled. -/
def pass (t : Tree) (s : CandidateSpace) (cancelled : Bool) (id : NodeId) (b : Board) :
    Except TraceError Board := do
  let n ← t.node id
  if cancelled then .error (.cancelled n.label)
  else b.publish id (← n.run s b)

/-- Runs some nodes in turn. -/
def passes {m : Type → Type} [Monad m] (t : Tree) (s : CandidateSpace) (isCancelled : m Bool) :
    List NodeId → Board → m (Except TraceError Board)
  | [], b => pure (.ok b)
  | id :: rest, b => do
    match t.pass s (← isCancelled) id b with
    | .error e => pure (.error e)
    | .ok next => passes t s isCancelled rest next

/-- The outcome of a run that has published the given tables. -/
def outcome (t : Tree) (s : CandidateSpace) (b : Board) : Except TraceError Evaluation := do
  let n ← t.node t.root
  let result ← b.get t.root n.label
  return ⟨t.name, t.root, n.label, s, b, result⟩

/-- An order in which a run may take its nodes: wave by wave, and within a wave in any order. -/
structure Turns (t : Tree) where
  ids : List NodeId
  inTurns : Schedule.TakesTurns t.waves ids

/-- The order in which each wave is taken as it is listed. -/
def listedTurns (t : Tree) : t.Turns := ⟨t.waves.flatten, Schedule.takesTurns_flatten t.waves⟩

/-- Runs a tree, taking its nodes in some order and looking at the state of cancellation before
each. -/
def runInTurns {m : Type → Type} [Monad m] (isCancelled : m Bool) (t : Tree) (s : CandidateSpace)
    (w : t.Turns) : m (Except TraceError Evaluation) := do
  match ← t.passes s isCancelled w.ids .empty with
  | .error e => pure (.error e)
  | .ok b => pure (t.outcome s b)

/-- Runs a tree one node at a time, each wave as it is listed. -/
def runWith {m : Type → Type} [Monad m] (isCancelled : m Bool) (t : Tree) (s : CandidateSpace) :
    m (Except TraceError Evaluation) :=
  t.runInTurns isCancelled s t.listedTurns

/-- Runs a tree with a fixed state of cancellation. -/
def run (t : Tree) (s : CandidateSpace) (cancelled : Bool) : Except TraceError Evaluation :=
  Id.run (t.runWith (pure cancelled) s)

/-- Runs a tree under a token, one node at a time. The run starts the token, so that its deadline
counts from then on, and looks at the started token before each node. -/
def runUnder {m : Type → Type} [Monad m] (clock : m Nat) (families : m Families) (token : Token)
    (t : Tree) (s : CandidateSpace) : m (Except TraceError Evaluation) := do
  let started := token.start (← clock)
  t.runWith (do return (← families).isCancelled (← clock) started) s

end Tree

end TraceRecovery
