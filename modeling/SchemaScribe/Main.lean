import SchemaScribe.CommandLine.Tool

/-! # The program

The outer layer of the command line tool. The way to the endpoint is left to whoever calls the
program: the body of the request goes to the standard output, and what then arrives on the standard
input is the body of a successful response. The file is opened only when its text is complete.
-/
namespace SchemaScribe.Main

/-- All octets of a stream. -/
partial def readAll (stream : IO.FS.Stream) (before : ByteArray) : IO ByteArray := do
  let next ← stream.read 65536
  if next.isEmpty then return before else readAll stream (before ++ next)

/-- Shows an outcome and gives its exit code. -/
def finish (outcome : CommandLine.Outcome) : IO UInt32 := do
  IO.print outcome.output
  IO.eprint outcome.errors
  match outcome.ending with
  | .exit code | .leave code => return code.toUInt32
  | .failed notice => throw (IO.userError notice.message)

/-- Sends the request and takes the response. -/
def exchange (options : CommandLine.Options) : IO Surroundings := do
  let .ok scribe := options.scribe | return { wire := { replies := [] } }
  let .ok request := (scribe.client options.url).request scribe.draft
    | return { wire := { replies := [] } }
  IO.println request.data
  (← IO.getStdout).flush
  let octets ← readAll (← IO.getStdin) ByteArray.empty
  return { wire := { replies := [.response 200 .utf8 octets.toList] } }

/-- Writes the schema of a scribe to a file of the machine. -/
def writeFile (scribe : Scribe) (path : String) (around : Surroundings) :
    IO (Except CommandLine.WorkFault Unit × Surroundings) := do
  match scribe.textToWrite none with
  | .error fault => return (.error (.scribe fault), around)
  | .ok { text, declared, tear := none } =>
    IO.FS.writeFile path text
    return (.ok (), around.note (.wrote declared path))
  | .ok { tear := some tear, .. } =>
    IO.FS.writeFile path ""
    return (.error (.scribe (.torn tear)), around)

def run (options : CommandLine.Options) : IO UInt32 := do
  let (prepared, around) := options.prepare (← exchange options)
  let (result, after) ← match prepared with
    | .error fault => pure (.error fault, around)
    | .ok scribe => writeFile scribe (options.output.getD "") around
  finish (options.outcome result after.log)

end SchemaScribe.Main

def main (arguments : List String) : IO UInt32 :=
  match SchemaScribe.CommandLine.Options.parse arguments with
  | .error refusal => SchemaScribe.Main.finish refusal.outcome
  | .ok options => SchemaScribe.Main.run options
