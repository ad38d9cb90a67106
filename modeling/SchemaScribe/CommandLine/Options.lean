import SchemaScribe.CommandLine.Header
import SchemaScribe.Decimal.Numeral
import SchemaScribe.Text.Join
import SchemaScribe.Text.Quoted

/-! # Command line options

The arguments of the tool: the URL of an endpoint and the path of a file, with options between them.
A long option may be shortened as long as it stays the only one that begins so. A value may be
attached to its option; options of one letter without a value may share a dash. What begins with a
dash is no option if it is a negative number or holds a blank, or if it stands after a pair of
dashes.
-/
namespace SchemaScribe.CommandLine

inductive Flag where
  | help
  | header
  | timeout
  | verbose
deriving DecidableEq, Repr

namespace Flag

def takesValue : Flag → Bool
  | .header | .timeout => true
  | .help | .verbose => false

def title : Flag → String
  | .help => "-h/--help"
  | .header => "-H/--header"
  | .timeout => "--timeout"
  | .verbose => "-v/--verbose"

/-- The spellings of the options, in order. -/
def spellings : List (String × Flag) :=
  [("-h", .help), ("--help", .help), ("-H", .header), ("--header", .header),
   ("--timeout", .timeout), ("-v", .verbose), ("--verbose", .verbose)]

def ofSpelling? (spelling : String) : Option Flag := spellings.lookup spelling

end Flag

/-- Why the arguments are not taken as options: help is asked for, or they are used wrongly. -/
inductive Refusal where
  | help
  | usage (message : String)
deriving DecidableEq, Repr

def misuse {α : Type} (flag : Flag) (message : String) : Except Refusal α :=
  .error (.usage ("argument " ++ flag.title ++ ": " ++ message))

/-! ## Kinds of arguments -/

/-- The pair of dashes that separates options from values. -/
def separatorText : String := "--"

abbrev Attached := List Char

/-- An argument by its kind. An option may be unknown. -/
inductive Argument where
  | option (raw : String) (flag : Option Flag) (short : Bool) (attached : Option Attached)
  | value (text : String)
  | separator

/-- Is the text a minus sign with a whole or decimal number? A final line feed is overlooked. -/
def isNegativeNumber (s : String) : Bool :=
  let isDigit (c : Char) : Bool := (Text.digitValue? c).isSome
  let digits (s : List Char) : Bool := !s.isEmpty && s.all isDigit
  match s.toList with
  | '-' :: body =>
    let body := if body.getLast? = some '\n' then body.dropLast else body
    digits body ||
      (match cutAt '.' body with
        | some (whole, fraction) => whole.all isDigit && digits fraction
        | none => false)
  | _ => false

/-- The options that an argument may stand for: a long one by its beginning, and a short one by its
letter with a value behind it. -/
def candidates (s : List Char) : List (String × Flag × Option Attached) :=
  match s with
  | '-' :: '-' :: _ =>
    let parts : List Char × Option Attached := match cutAt '=' s with
      | some (before, after) => (before, some after)
      | none => (s, none)
    (Flag.spellings.filter fun option => parts.1.isPrefixOf option.1.toList).map
      fun (spelling, flag) => (spelling, flag, parts.2)
  | '-' :: letter :: rest =>
    (Flag.spellings.filter fun option => option.1.toList = ['-', letter]).map
      fun (spelling, flag) => (spelling, flag, some rest)
  | _ => []

def isShort (spelling : String) : Bool := !Text.startsWith "--" spelling

/-- The kind of an argument that stands before any separator. -/
def classify (raw : String) : Except Refusal Argument :=
  let s := raw.toList
  if s.head? ≠ some '-' then .ok (.value raw)
  else
    match Flag.ofSpelling? raw with
    | some flag => .ok (.option raw (some flag) (isShort raw) none)
    | none =>
      if s.length = 1 then .ok (.value raw)
      else
        let direct := (cutAt '=' s).bind fun (before, after) =>
          let spelling := String.ofList before
          (Flag.ofSpelling? spelling).map fun flag =>
            Argument.option raw (some flag) (isShort spelling) (some after)
        match direct, candidates s with
        | some argument, _ => .ok argument
        | none, [(spelling, flag, attached)] =>
          .ok (.option raw (some flag) (isShort spelling) attached)
        | none, first :: second :: others =>
          .error (.usage ("ambiguous option: " ++ raw ++ " could match " ++
            Text.joinWith ", " ((first :: second :: others).map Prod.fst)))
        | none, [] =>
          if isNegativeNumber raw ∨ s.contains ' ' then .ok (.value raw)
          else .ok (.option raw none false none)

def classifyAll : List String → Except Refusal (List Argument)
  | [] => .ok []
  | raw :: rest =>
    if raw = separatorText then .ok (.separator :: rest.map .value)
    else do
      let argument ← classify raw
      return argument :: (← classifyAll rest)

/-! ## Reading the arguments in order -/

/-- What was read so far. A value that is itself a pair of dashes is dropped as a separator is, and
nothing is left in its place. -/
structure Progress where
  positionals : List (Option String) := []
  headers : List (Option (String × String)) := []
  timeout : Option (Option Binary64) := none
  verbose : Bool := false
  extras : List String := []

def positionalNames : List String := ["url", "output"]

def Progress.apply (progress : Progress) (flag : Flag) (text : String) : Except Refusal Progress :=
  match flag with
  | .help => .error .help
  | .verbose => .ok { progress with verbose := true }
  | .header =>
    if text = separatorText then .ok { progress with headers := progress.headers ++ [none] }
    else
      match parseHeader text with
      | some header => .ok { progress with headers := progress.headers ++ [some header] }
      | none => misuse flag (headerRefusal text)
  | .timeout =>
    if text = separatorText then .ok { progress with timeout := some none }
    else
      match Numeral.decimal? text with
      | some seconds => .ok { progress with timeout := some (some seconds) }
      | none => misuse flag ("invalid float value: " ++ Text.quote text)

def Progress.applyAll (progress : Progress) : List (Flag × String) → Except Refusal Progress
  | [] => .ok progress
  | (flag, text) :: rest => do (← progress.apply flag text).applyAll rest

/-- What one argument with options asks for: options with their values, and one more option that
takes the next argument as its value. -/
structure Cluster where
  actions : List (Flag × String) := []
  waiting : Option Flag := none

def Cluster.first (flag : Flag) (text : String) (cluster : Cluster) : Cluster :=
  { cluster with actions := (flag, text) :: cluster.actions }

def ignored {α : Type} (flag : Flag) (text : List Char) : Except Refusal α :=
  misuse flag ("ignored explicit argument " ++ Text.quote (String.ofList text))

/-- Options that share a dash, from the one before the given letters on. An option that takes a
value takes all letters behind it. -/
def cluster (flag : Flag) : List Char → Except Refusal Cluster
  | [] =>
    if flag.takesValue then .ok { waiting := some flag } else .ok { actions := [(flag, "")] }
  | c :: rest =>
    if flag.takesValue then .ok { actions := [(flag, String.ofList (c :: rest))] }
    else
      match Flag.ofSpelling? (String.ofList ['-', c]) with
      | none => ignored flag (c :: rest)
      | some next => (cluster next rest).map (Cluster.first flag "")

/-- An option with what is attached to it. Behind a short option without a value stand the letters
of further options. -/
def optionCluster (flag : Flag) (short : Bool) : Option Attached → Except Refusal Cluster
  | none => cluster flag []
  | some text =>
    if flag.takesValue then .ok { actions := [(flag, String.ofList text)] }
    else if short && !text.isEmpty then cluster flag text
    else ignored flag text

def isSeparator : Argument → Bool
  | .separator => true
  | _ => false

/-- Takes one positional argument from the front, with a separator before or after it. -/
def takePositional (arguments : List Argument) : Option (Option String × List Argument) :=
  let (before, rest) := (arguments.takeWhile isSeparator, arguments.dropWhile isSeparator)
  match rest with
  | .value text :: rest =>
    let after := rest.takeWhile isSeparator
    let separated := !before.isEmpty || !after.isEmpty
    some (if text = separatorText && !separated then none else some text,
      rest.dropWhile isSeparator)
  | _ => none

/-- Takes as many positional arguments from the front as are still wanted. -/
def takePositionals : Nat → List Argument → List (Option String) × List Argument
  | 0, arguments => ([], arguments)
  | wanted + 1, arguments =>
    match takePositional arguments with
    | none => ([], arguments)
    | some (text, rest) =>
      let (texts, rest) := takePositionals wanted rest
      (text :: texts, rest)

def isOption : Argument → Bool
  | .option .. => true
  | _ => false

def rawText : Argument → String
  | .option raw .. => raw
  | .value text => text
  | .separator => separatorText

/-- One option with the arguments after it: what is asked for is applied at once. -/
def Progress.takeOption (progress : Progress) (raw : String) (flag : Option Flag) (short : Bool)
    (attached : Option Attached) (rest : List Argument) :
    Except Refusal (Progress × List Argument) :=
  match flag with
  | none => .ok ({ progress with extras := progress.extras ++ [raw] }, rest)
  | some flag => do
    let found ← optionCluster flag short attached
    match found.waiting, rest with
    | none, rest => return (← progress.applyAll found.actions, rest)
    | some waiting, .value text :: rest =>
      return (← progress.applyAll (found.actions ++ [(waiting, text)]), rest)
    | some waiting, _ => misuse waiting "expected one argument"

/-- Reads arguments in order; each step takes at least one of them. -/
def Progress.read : Nat → Progress → List Argument → Except Refusal Progress
  | 0, progress, _ => .ok progress
  | _, progress, [] => .ok progress
  | steps + 1, progress, .option raw flag short attached :: rest => do
    let (progress, rest) ← progress.takeOption raw flag short attached rest
    progress.read steps rest
  | steps + 1, progress, arguments =>
    match takePositionals (positionalNames.length - progress.positionals.length) arguments with
    | ([], _) =>
      let extras := (arguments.takeWhile (!isOption ·)).map rawText
      ({ progress with extras := progress.extras ++ extras }).read steps
        (arguments.dropWhile (!isOption ·))
    | (texts, rest) =>
      ({ progress with positionals := progress.positionals ++ texts }).read steps rest

/-- The options of the tool. Where a value was dropped there is none. -/
structure Options where
  url : String
  output : Option String
  headers : List (Option (String × String)) := []
  timeout : Option (Option Binary64) := none
  verbose : Bool := false

/-- Everything that is wanted must be there, and nothing else. -/
def Progress.finish (progress : Progress) : Except Refusal Options :=
  match progress.positionals with
  | url :: output :: _ =>
    match progress.extras with
    | [] =>
      .ok { url := url.getD "", output, headers := progress.headers, timeout := progress.timeout
            verbose := progress.verbose }
    | extras =>
      .error (.usage ("unrecognized arguments: " ++ Text.joinWith " " extras))
  | given =>
    .error (.usage ("the following arguments are required: " ++
      Text.joinWith ", " (positionalNames.drop given.length)))

def Options.parse (arguments : List String) : Except Refusal Options := do
  let classified ← classifyAll arguments
  let progress ← ({} : Progress).read (classified.length + 1) classified
  progress.finish

end SchemaScribe.CommandLine
