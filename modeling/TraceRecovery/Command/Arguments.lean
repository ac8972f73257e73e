import TraceRecovery.Decimal.Reader
import TraceRecovery.Text.Pieces

/-!
# Arguments of the command line

The first argument names what is to be done, the others are options with values. A value follows its
option as the next argument or behind an equals sign; only in the second form may it begin with a
hyphen. All options but `--set` are given at most once. Arguments are read from left to right up to
the first that cannot be understood or that asks for an explanation; `Command.ofArguments?` has no
result in the first case, before anything is done.
-/

namespace TraceRecovery

/-- What both commands work on. -/
structure Inputs where
  /-- The path of the architecture. -/
  architecture : String
  /-- The path of the code. -/
  code : String
  /-- The path of a document of settings. -/
  config : Option String
  overrides : List String
  threshold : Option Float

/-- What the program is asked to do. -/
inductive Command where
  /-- To name its version. -/
  | version
  /-- To explain its arguments. -/
  | help
  /-- To write the links of the standard tree, to a file if there is a path. -/
  | link (inputs : Inputs) (output : Option String)
  /-- To compare the links of the standard tree with a gold standard. -/
  | evaluate (inputs : Inputs) (gold : String)

/-- The values of the options that have been given. -/
structure Options where
  architecture : Option String
  code : Option String
  config : Option String
  output : Option String
  gold : Option String
  threshold : Option Float
  overrides : List String

namespace Options

/-- No options. -/
def empty : Options := ⟨none, none, none, none, none, none, []⟩

/-- The first value of an option; a second one is refused. -/
def once {α : Type} (given value : Option α) : Option (Option α) :=
  match given, value with
  | none, some v => some (some v)
  | _, _ => none

/-- A path, which has at least one character. -/
def path? (text : String) : Option String := if text.isEmpty then none else some text

/-- The options with one more; there is no result if its name or its value is refused. -/
def put? (o : Options) (name value : String) : Option Options :=
  match name with
  | "architecture" =>
    (once o.architecture (path? value)).map fun v => { o with architecture := v }
  | "code" => (once o.code (path? value)).map fun v => { o with code := v }
  | "config" => (once o.config (path? value)).map fun v => { o with config := v }
  | "output" => (once o.output (path? value)).map fun v => { o with output := v }
  | "gold" => (once o.gold (path? value)).map fun v => { o with gold := v }
  | "threshold" =>
    (once o.threshold (Decimal.float? value)).map fun v => { o with threshold := v }
  | "set" => some { o with overrides := o.overrides ++ [value] }
  | _ => none

/-- The name and the value of an option behind its hyphens, if they are written in one. -/
def splitOption (text : List Char) : String × Option String :=
  match Text.cutOnce '=' text with
  | some (name, value) => (String.ofList name, some (String.ofList value))
  | none => (String.ofList text, none)

/-- Whether an argument can be the value of the option before it. -/
def isValue (argument : String) : Bool := argument == "-" || !argument.startsWith "-"

/-- What the arguments of a command say. -/
inductive Request where
  | explanation
  | work (options : Options)

/-- Reads options, all of which must have one of the names, behind those that were given before. -/
def read? (names : List String) (o : Options) : List String → Option Request
  | [] => some (.work o)
  | "--" :: rest => if rest.isEmpty then some (.work o) else none
  | "--help" :: _ | "-h" :: _ => some .explanation
  | argument :: rest =>
    match argument.toList with
    | '-' :: '-' :: text =>
      match splitOption text, rest with
      | (name, some value), rest =>
        if names.contains name then o.put? name value >>= fun o => read? names o rest else none
      | (name, none), value :: rest =>
        if names.contains name && isValue value then
          o.put? name value >>= fun o => read? names o rest
        else none
      | _, [] => none
    | _ => none

/-- The names of the options of both commands. -/
def inputNames : List String := ["architecture", "code", "config", "set", "threshold"]

/-- What both commands work on; the models are always needed. -/
def inputs? (o : Options) : Option Inputs := do
  some ⟨← o.architecture, ← o.code, o.config, o.overrides, o.threshold⟩

end Options

namespace Command

/-- The command that options describe, some of which are named. -/
def ofOptions? (names : List String) (command? : Options → Option Command)
    (arguments : List String) : Option Command :=
  match Options.read? (names ++ Options.inputNames) .empty arguments with
  | some .explanation => some help
  | some (.work o) => command? o
  | none => none

/-- The command that arguments describe. -/
def ofArguments? : List String → Option Command
  | "--version" :: _ | "-V" :: _ => some version
  | "--help" :: _ | "-h" :: _ => some help
  | ["help"] | ["help", "link"] | ["help", "evaluate"] | ["help", "help"] => some help
  | "link" :: rest => ofOptions? ["output"] (fun o => return link (← o.inputs?) o.output) rest
  | "evaluate" :: rest =>
    ofOptions? ["gold"] (fun o => return evaluate (← o.inputs?) (← o.gold)) rest
  | _ => none

end Command

end TraceRecovery
