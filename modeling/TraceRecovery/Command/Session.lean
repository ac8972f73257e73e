import TraceRecovery.Command.Arguments
import TraceRecovery.Link.GoldStandard
import TraceRecovery.Link.Report
import TraceRecovery.Model.Document
import TraceRecovery.Settings.Document
import TraceRecovery.Tree.Standard

/-!
# Sessions

What the program does for a command. The files, the clock and the source of names for runs are
operations of a monad that the caller chooses, so a session can be run against files in memory as
well. A session ends with the first error, and what it writes to the two outputs is its result.
-/

namespace TraceRecovery

/-- What a session needs from outside. -/
structure Surroundings (m : Type → Type) where
  /-- The text of a file. -/
  read : String → m (Except TraceError String)
  /-- Writes a text to a file. -/
  write : String → String → m (Except TraceError Unit)
  /-- The milliseconds on a clock that only moves forward. -/
  clock : m Nat
  now : m Time.Instant
  newRunId : m RunId

/-- What the program leaves: its status, and the lines of its two outputs. -/
structure Outcome where
  status : Nat
  output : List String
  errors : List String
deriving DecidableEq, Repr

namespace Outcome

/-- Success with some output. -/
def success (output : List String) : Outcome := ⟨0, output, []⟩

/-- The end of a session by an error. -/
def failure (message : String) : Outcome := ⟨1, [], ["Error: " ++ message]⟩

end Outcome

namespace Session

variable {m : Type → Type} [Monad m]

/-- The name and the version of the program. -/
def versionText : String := "archtrace 0.1.0"

/-- The explanation of the arguments. -/
def usage : List String :=
  ["Recovers trace links between an architecture and its code.", "",
   "archtrace link --architecture FILE --code FILE [--output FILE] [SETTINGS]",
   "archtrace evaluate --architecture FILE --code FILE --gold FILE [SETTINGS]", "",
   "SETTINGS: [--config FILE] [--set KEY=VALUE]... [--threshold NUMBER]"]

/-- A step of a session, which an error ends. -/
abbrev Step (m : Type → Type) (α : Type) := ExceptT TraceError m α

/-- The text of a file, read in some way. -/
def load {α : Type} (s : Surroundings m) (path : String)
    (parse : String → Except TraceError α) : Step m α := do
  let text ← ExceptT.mk (s.read path)
  ExceptT.mk (pure (parse text))

/-- The settings of a command. -/
def settings (s : Surroundings m) (i : Inputs) : Step m Settings := do
  let document ← match i.config with
    | some path => some <$> ExceptT.mk (s.read path)
    | none => pure none
  ExceptT.mk (pure (Settings.ofLayers document i.overrides i.threshold))

/-- Runs a tree under some settings, up to the deadline if there is one. -/
def runTree (s : Surroundings m) (settings : Settings) (tree : Tree) (space : CandidateSpace) :
    Step m Evaluation := do
  let (first, families) := Families.empty.begin
  ExceptT.mk (tree.runUnder s.clock (pure families) (settings.token first) space)

/-- Runs the standard tree on the models of a command. -/
def evaluation (s : Surroundings m) (settings : Settings) (i : Inputs) : Step m Evaluation := do
  let architecture ← load s i.architecture Architecture.ofText
  let code ← load s i.code Code.ofText
  let tree ← ExceptT.mk (pure (Tree.standard settings))
  runTree s settings tree ⟨architecture, code⟩

/-- The report on the standard tree. -/
def report (s : Surroundings m) (settings : Settings) (i : Inputs) : Step m Report := do
  let e ← evaluation s settings i
  let θ ← ExceptT.mk (pure (Threshold.ofValue settings.threshold))
  let runId ← (s.newRunId : m RunId)
  let now ← (s.now : m Time.Instant)
  ExceptT.mk (pure (Report.ofEvaluation runId now θ e))

/-- Hands a report out, to a file if there is a path. -/
def deliver (s : Surroundings m) (r : Report) : Option String → Step m Outcome
  | none => return .success [r.toText]
  | some path => do
    ExceptT.mk (s.write path r.toText)
    return ⟨0, [], [s!"Wrote {r.links.length} trace links to {path}"]⟩

/-- What the links of a command are worth: their number, that of the gold standard and of the
candidates, and the metrics. -/
structure Verdict where
  links : Nat
  gold : Nat
  candidates : Nat
  metrics : Metrics Float

/-- Compares the links of the standard tree with a gold standard. -/
def verdict (s : Surroundings m) (settings : Settings) (i : Inputs) (gold : GoldStandard) :
    Step m Verdict := do
  let e ← evaluation s settings i
  let θ ← ExceptT.mk (pure (Threshold.ofValue settings.threshold))
  let links ← ExceptT.mk (pure (e.links θ))
  let enrolled ← ExceptT.mk (pure (gold.enroll e.space.architecture e.space.code))
  let size := e.space.size
  return ⟨links.length, enrolled.size, size, enrolled.evaluate links size⟩

/-- A text with blanks behind it up to a width. -/
def padEnd (width : Nat) (s : String) : String :=
  s ++ String.ofList (List.replicate (width - s.length) ' ')

/-- A text with blanks in front of it up to a width. -/
def padStart (width : Nat) (s : String) : String :=
  String.ofList (List.replicate (width - s.length) ' ') ++ s

/-- A row of the table: a name and a value. -/
def row (name value : String) : String := padEnd 10 name ++ " " ++ padStart 8 value

/-- The table of a verdict. -/
def Verdict.table (v : Verdict) : List String :=
  let count (name : String) (n : Nat) := row name (toString n)
  let score (name : String) (x : Float) := row name (Decimal.fixed 3 x)
  let s := v.metrics.scores
  [count "LINKS" v.links, count "GOLD" v.gold, count "CANDIDATES" v.candidates,
   String.ofList (List.replicate 19 '-'),
   score "PRECISION" s.precision, score "RECALL" s.sensitivity, score "F1" s.f1,
   score "ACCURACY" s.accuracy, score "SPECIFICITY" s.specificity, score "PHI" s.phi,
   score "PHI/MAX" s.phiOverPhiMax]

/-- Goes on with the result of a step, or ends the session with its error. -/
def andThen {α : Type} (step : Step m α) (say : TraceError → String) (next : α → m Outcome) :
    m Outcome := do
  match ← step.run with
  | .ok x => next x
  | .error e => return .failure (say e)

/-- What is said of settings that cannot be loaded. -/
def settingsMessage (e : TraceError) : String := "cannot load configuration: " ++ e.message

/-- What is said of a gold standard that cannot be loaded. -/
def goldMessage (path : String) (e : TraceError) : String :=
  s!"cannot load gold standard '{path}': " ++ e.message

/-- Carries a command out. -/
def run (s : Surroundings m) : Command → m Outcome
  | .version => return .success [versionText]
  | .help => return .success usage
  | .link i output =>
    andThen (settings s i) settingsMessage fun settings =>
      andThen (report s settings i >>= fun r => deliver s r output) TraceError.message pure
  | .evaluate i path =>
    andThen (settings s i) settingsMessage fun settings =>
      andThen (load s path GoldStandard.ofText) (goldMessage path) fun gold =>
        andThen (verdict s settings i gold) TraceError.message fun v =>
          return .success v.table

/-- Carries out what the arguments describe; the status is 2 if they cannot be understood. -/
def runArguments (s : Surroundings m) (arguments : List String) : m Outcome :=
  match Command.ofArguments? arguments with
  | some c => run s c
  | none => return ⟨2, [], usage⟩

end Session

end TraceRecovery
