import SchemaScribe.CommandLine.Options
import SchemaScribe.Scribe

/-! # The command line tool

Fetches the schema of an endpoint and writes it to a file. Every promised failure ends in a line on
the error stream and the exit code 1. Wrong usage and help end the tool before it does anything.
-/
namespace SchemaScribe.CommandLine

def programName : String := "python -m graphql_introspector.tool"

def usageText : String :=
  "usage: python -m graphql_introspector.tool [-h] [-H HEADERS]\n" ++
  "                                           [--timeout TIMEOUT] [-v]\n" ++
  "                                           url output\n"

def helpText : String :=
  usageText ++
  "\nIntrospect a GraphQL endpoint and write its schema as SDL.\n" ++
  "\npositional arguments:\n" ++
  "  url                   URL of the GraphQL endpoint\n" ++
  "  output                path of the SDL file to write\n" ++
  "\noptions:\n" ++
  "  -h, --help            show this help message and exit\n" ++
  "  -H HEADERS, --header HEADERS\n" ++
  "                        header to send, as \"Name: value\". May be repeated.\n" ++
  "  --timeout TIMEOUT     seconds to wait for the server\n" ++
  "  -v, --verbose         log progress to stderr\n"

/-- How the tool ends: with an exit code, by leaving before any work, or by a failure that it does
not answer for. -/
inductive Ending where
  | exit (code : Nat)
  | leave (code : Nat)
  | failed (notice : Notice)

/-- The ending of the tool with the texts on its two streams. -/
structure Outcome where
  ending : Ending
  output : String := ""
  errors : String := ""

def logLine (entry : LogEntry) : String := "INFO " ++ entry.source ++ ": " ++ entry.text ++ "\n"

/-- Why the work that options ask for fails. -/
inductive WorkFault where
  | droppedHeader
  | droppedPath
  | scribe (fault : ScribeFault)

def WorkFault.notice : WorkFault → Notice
  | .droppedHeader =>
    { kind := .value, message := "not enough values to unpack (expected 2, got 0)" }
  | .droppedPath => .unfit
  | .scribe fault => fault.notice

/-- The timeout that the options ask for: none, or the empty list where its value was dropped. -/
def Options.timeoutValue (options : Options) : Value :=
  match options.timeout with
  | none => .null
  | some none => .list []
  | some (some seconds) => .float seconds

/-- The scribe that the options ask for. Every header must have its name and its value. -/
def Options.scribe (options : Options) : Except WorkFault Scribe :=
  match options.headers.mapM id with
  | none => .error .droppedHeader
  | some headers =>
    .ok { timeout := options.timeoutValue
          ownsSessions := true
          headers := Entries.ofList (headers.map fun (name, value) => (.str name, .str value)) }

/-- Fetches and builds, up to the first failure: the scribe that has the schema. -/
def Options.prepare (options : Options) (around : Surroundings) :
    Except WorkFault Scribe × Surroundings :=
  match options.scribe with
  | .error fault => (.error fault, around)
  | .ok scribe =>
    match scribe.fetch (some options.url) around with
    | (.error fault, around) => (.error (.scribe fault), around)
    | (.ok (_, scribe), around) =>
      match scribe.build none around with
      | (.error fault, around) => (.error (.scribe fault), around)
      | (.ok (_, scribe), around) => (.ok scribe, around)

/-- Fetches, builds and writes, up to the first failure. -/
def Options.work (options : Options) (around : Surroundings) :
    Except WorkFault Unit × Surroundings :=
  match options.prepare around with
  | (.error fault, around) => (.error fault, around)
  | (.ok scribe, around) =>
    match options.output with
    | some path =>
      let (result, around) := scribe.write path none around
      (result.mapError .scribe, around)
    | none =>
      match scribe.textToWrite none with
      | .error fault => (.error (.scribe fault), around)
      | .ok _ => (.error .droppedPath, around)

/-- The ending of work with its log: a promised failure is told in a line, and any other one is not
answered for. -/
def Options.outcome (options : Options) (result : Except WorkFault Unit) (log : List LogEntry) :
    Outcome :=
  let told := if options.verbose then Text.joinWith "" (log.map logLine) else ""
  match result with
  | .ok () => { ending := .exit 0, errors := told }
  | .error fault =>
    let notice := fault.notice
    if notice.kind.isPromised then
      { ending := .exit 1, errors := told ++ "error: " ++ notice.message ++ "\n" }
    else { ending := .failed notice, errors := told }

def Options.run (options : Options) (around : Surroundings) : Outcome × Surroundings :=
  let (result, after) := options.work around
  (options.outcome result after.log, after)

def Refusal.outcome : Refusal → Outcome
  | .help => { ending := .leave 0, output := helpText }
  | .usage message =>
    { ending := .leave 2
      errors := usageText ++ programName ++ ": error: " ++ message ++ "\n" }

def run (arguments : List String) (around : Surroundings) : Outcome × Surroundings :=
  match Options.parse arguments with
  | .error refusal => (refusal.outcome, around)
  | .ok options => options.run around

end SchemaScribe.CommandLine
