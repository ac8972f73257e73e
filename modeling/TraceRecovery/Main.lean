import Std.Time.DateTime.Timestamp
import TraceRecovery.Command.Session

/-!
# The program

Sessions with the files, the clock and the random numbers of the machine.
-/

namespace TraceRecovery.Program

/-- The text of a file. -/
def read (path : String) : IO (Except TraceError String) := do
  try
    return .ok (← IO.FS.readFile path)
  catch e =>
    return .error (.file (toString e))

/-- Writes a text to a file. -/
def write (path text : String) : IO (Except TraceError Unit) := do
  try
    IO.FS.writeFile path text
    return .ok ()
  catch e =>
    return .error (.file (toString e))

/-- A run id made of random bits. -/
def newRunId : IO RunId := do
  let bytes ← IO.getRandomBytes 16
  let value := bytes.toList.foldl (fun n b => 256 * n + b.toNat) 0
  return .ofRandom (BitVec.ofNat 128 value)

/-- The time of the machine. -/
def now : IO Time.Instant := do
  let nanos := (← Std.Time.Timestamp.now).toNanosecondsSinceUnixEpoch.val
  return ⟨nanos / 1000000000, (nanos % 1000000000).toNat⟩

/-- The machine as the surroundings of a session. -/
def surroundings : Surroundings IO where
  read := read
  write := write
  clock := IO.monoMsNow
  now := now
  newRunId := newRunId

end TraceRecovery.Program

/-- Carries out what the arguments describe. -/
def main (arguments : List String) : IO UInt32 := do
  let outcome ← TraceRecovery.Session.runArguments TraceRecovery.Program.surroundings arguments
  for line in outcome.output do
    IO.println line
  for line in outcome.errors do
    IO.eprintln line
  return outcome.status.toUInt32
