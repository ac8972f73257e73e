/-!
# Cancellation

A run is cancelled through a token. The tokens that are derived from one another form a family and
are cancelled together. A token may have a timeout, which becomes a deadline when a run starts with
the token; from the deadline on the token counts as cancelled. Times are milliseconds on a clock
that only moves forward.

`Tokens` are all tokens in use at some time, and `TokenStep` is what can be done with them.
-/

namespace TraceRecovery

/-- A token through which runs are cancelled. -/
structure Token where
  /-- The number of the family. -/
  family : Nat
  timeout : Option Nat
  deadline : Option Nat
deriving DecidableEq, Repr

namespace Token

/-- The token that begins a family. -/
def first (family : Nat) : Token := ⟨family, none, none⟩

/-- A token of the same family whose deadline, at the next start, is that many milliseconds away. -/
def withTimeout (t : Token) (milliseconds : Nat) : Token := { t with timeout := some milliseconds }

/-- The token of a run that starts at a given time. -/
def start (t : Token) (now : Nat) : Token := { t with deadline := t.timeout.map (now + ·) }

end Token

/-- The families of tokens, and those that have been cancelled. -/
structure Families where
  count : Nat
  cancelled : List Nat
deriving DecidableEq, Repr

namespace Families

/-- No families. -/
def empty : Families := ⟨0, []⟩

/-- A new family with its first token. -/
def begin (f : Families) : Token × Families := (.first f.count, { f with count := f.count + 1 })

/-- Cancels all tokens of a token's family. -/
def cancel (f : Families) (t : Token) : Families := { f with cancelled := t.family :: f.cancelled }

/-- Whether a token is cancelled at a given time. -/
def isCancelled (f : Families) (now : Nat) (t : Token) : Bool :=
  f.cancelled.contains t.family || t.deadline.any (· ≤ now)

end Families

/-- What can be done with tokens, which are numbered in the order in which they are made. Time
passes between the other steps. -/
inductive TokenStep where
  | begin
  | clone (id : Nat)
  | withTimeout (id milliseconds : Nat)
  | start (id : Nat)
  | cancel (id : Nat)
  | ask (id : Nat)
  | wait (milliseconds : Nat)

/-- All tokens that have been made, what has become of their families, and the time. -/
structure Tokens where
  families : Families
  made : List Token
  now : Nat

namespace Tokens

/-- No tokens. -/
def empty : Tokens := ⟨.empty, [], 0⟩

/-- Makes a token of the one with a number; a number without token changes nothing. -/
def derive (w : Tokens) (id : Nat) (make : Token → Token) : Tokens :=
  match w.made[id]? with
  | some t => { w with made := w.made ++ [make t] }
  | none => w

/-- The tokens after a step. -/
def next (w : Tokens) : TokenStep → Tokens
  | .begin =>
    let (t, families) := w.families.begin
    { w with families, made := w.made ++ [t] }
  | .clone id => w.derive id fun t => t
  | .withTimeout id milliseconds => w.derive id fun t => t.withTimeout milliseconds
  | .start id => w.derive id fun t => t.start w.now
  | .cancel id =>
    match w.made[id]? with
    | some t => { w with families := w.families.cancel t }
    | none => w
  | .ask _ => w
  | .wait milliseconds => { w with now := w.now + milliseconds }

/-- The tokens after some steps. -/
def after (w : Tokens) (steps : List TokenStep) : Tokens := steps.foldl next w

/-- Whether the token with a number is cancelled now. -/
def isCancelled (w : Tokens) (id : Nat) : Bool := w.made[id]?.any (w.families.isCancelled w.now)

end Tokens

end TraceRecovery
