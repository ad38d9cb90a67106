import SchemaScribe.Endpoint.Client
import SchemaScribe.FileTree
import SchemaScribe.IntrospectionQuery
import SchemaScribe.Schema.Origin
import SchemaScribe.Schema.Record
import SchemaScribe.Sdl.Encoding

/-! # From an endpoint to a file

A scribe fetches the introspection result of an endpoint, builds the schema from it and writes the
schema to a file. It keeps the result and the schema between these steps. A new result takes the
place of the old one and discards the schema that was built before; a step that fails keeps
everything as it was.
-/
namespace SchemaScribe

structure Scribe where
  url : Option String := none
  timeout : Value := .null
  ownsSessions : Bool := false
  headers : Entries := []
  result : Option Entries := none
  schema : Option Schema := none
  origin : Option Origin := none

inductive LogEntry where
  | introspecting (url : String)
  | built (declared listed : Nat)
  | wrote (declared : Nat) (path : String)

namespace LogEntry

def source : LogEntry → String
  | .introspecting _ | .wrote .. => "graphql_introspector.introspection.introspector"
  | .built .. => "graphql_introspector.introspection.schema_builder"

def text : LogEntry → String
  | .introspecting url => "Introspecting GraphQL schema at " ++ url
  | .built declared listed =>
    "Built schema with " ++ toString declared ++ " types out of " ++ toString listed ++
      " introspected types."
  | .wrote declared path => "Wrote " ++ toString declared ++ " type declarations to " ++ path

end LogEntry

/-- What a scribe works with: the wire, the files, and the log from the oldest entry on. -/
structure Surroundings where
  wire : Wire
  files : FileTree := {}
  log : List LogEntry := []

namespace Surroundings

def note (around : Surroundings) (entry : LogEntry) : Surroundings :=
  { around with log := around.log ++ [entry] }

end Surroundings

inductive ScribeFault where
  | unhashableHeader (name : Value)
  | noUrl
  | client (fault : ClientFault)
  | dataNotAnObject (found : Value)
  | build (fault : BuildFault)
  | print (fault : Sdl.Unprintable)
  | nullInPath
  | file (path : String) (fault : WriteFault)
  | torn (tear : Sdl.Tear)
  | misdirected (fault : Value.PathFault)

namespace ScribeFault

def notice : ScribeFault → Notice
  | .unhashableHeader _ => .unfit
  | .noUrl =>
    { kind := .value, message := "No GraphQL endpoint URL was provided to introspect." }
  | .client fault => fault.notice
  | .dataNotAnObject found =>
    { kind := .decode
      message := "Expected the introspection \"data\" member to be a JSON object, but got: " ++
        found.display }
  | .build fault => fault.notice
  | .print fault => fault.notice
  | .nullInPath => { kind := .value, message := "embedded null byte" }
  | .file path fault =>
    .schemaWrite (.str path) (.str (fault.message path)) (some (.outside fault.kindName))
  | .torn tear => { kind := .outside "UnicodeEncodeError", message := tear.message }
  | .misdirected fault => fault.notice

end ScribeFault

namespace Scribe

def add (scribe : Scribe) (name value : Value) : Except ScribeFault Scribe :=
  if name.hashable then .ok { scribe with headers := Entries.put name value scribe.headers }
  else .error (.unhashableHeader name)

def draft (scribe : Scribe) : Draft :=
  { query := introspectionQuery, operation := .str "IntrospectionQuery", headers := scribe.headers }

def client (scribe : Scribe) (url : String) : Client :=
  { url, timeout := scribe.timeout, ownsSession := scribe.ownsSessions }

/-- Sends the introspection request. A session that is opened for it is closed in any case. -/
def ask (scribe : Scribe) (url : String) (wire : Wire) : Except ClientFault Value × Wire :=
  let client := scribe.client url
  let (answer, after) := client.run scribe.draft none (client.start wire)
  (answer, client.close after)

/-- Fetches the introspection result of an endpoint, the scribe's own unless another is given. -/
def fetch (scribe : Scribe) (url : Option String) (around : Surroundings) :
    Except ScribeFault (Value × Scribe) × Surroundings :=
  match url.or scribe.url with
  | none => (.error .noUrl, around)
  | some url =>
    let noted := around.note (.introspecting url)
    let (answer, wire) := scribe.ask url noted.wire
    let after := { noted with wire }
    match answer with
    | .error fault => (.error (.client fault), after)
    | .ok (.dict members) =>
      (.ok (.dict members,
        { scribe with result := some members, schema := none, origin := none }), after)
    | .ok found => (.error (.dataNotAnObject found), after)

/-- Builds the schema from a result, the one that was fetched unless another is given. Only the
fetched one can still be changed. -/
def build (scribe : Scribe) (given : Option Value) (around : Surroundings) :
    Except ScribeFault (Schema × Scribe) × Surroundings :=
  match given.or (scribe.result.map .dict) with
  | none => (.error (.build (.malformed .noResult)), around)
  | some result =>
    match Introspection.build result with
    | .error fault => (.error (.build fault), around)
    | .ok schema =>
      let origin := if given.isNone then some { result } else none
      (.ok (schema, { scribe with schema := some schema, origin }),
        around.note (.built schema.types.length (Introspection.listedTypes result)))

/-- What there is to write: a text, the number of its declarations, and its first tear. -/
structure Rendering where
  text : String
  declared : Nat
  tear : Option Sdl.Tear

def render (schema : Schema) : Except ScribeFault Rendering :=
  match Sdl.print schema with
  | .error fault => .error (.print fault)
  | .ok text => .ok { text, declared := schema.types.length, tear := Sdl.tear? schema }

/-- What to write: the schema that is given as a record, or the one that was built. -/
def textToWrite (scribe : Scribe) (given : Option Value) : Except ScribeFault Rendering :=
  match given with
  | some record =>
    match Schema.ofValue record with
    | .error fault => .error (.print fault)
    | .ok schema => render schema
  | none =>
    match scribe.schema with
    | none => .error (.build (.malformed .noSchema))
    | some schema => render schema

def writeText (path text : String) (declared : Nat) (around : Surroundings) :
    Except ScribeFault Unit × Surroundings :=
  if path.toList.contains '\x00' then (.error .nullInPath, around)
  else
    match around.files.write path text with
    | (.error fault, files) => (.error (.file path fault), { around with files })
    | (.ok (), files) => (.ok (), { around with files }.note (.wrote declared path))

/-- Tries to write a torn text. It is not encoded before the file is open. -/
def writeTorn (path : String) (tear : Sdl.Tear) (around : Surroundings) :
    Except ScribeFault Unit × Surroundings :=
  if path.toList.contains '\x00' then (.error .nullInPath, around)
  else
    match around.files.clear path with
    | (.error fault, files) => (.error (.file path fault), { around with files })
    | (.ok (), files) => (.error (.torn tear), { around with files })

def writeRendering (path : String) (rendering : Rendering) (around : Surroundings) :
    Except ScribeFault Unit × Surroundings :=
  match rendering.tear with
  | none => writeText path rendering.text rendering.declared around
  | some tear => writeTorn path tear around

/-- Writes the schema to the file at a path. The text is complete before the file is opened. -/
def write (scribe : Scribe) (path : String) (given : Option Value) (around : Surroundings) :
    Except ScribeFault Unit × Surroundings :=
  match scribe.textToWrite given with
  | .error fault => (.error fault, around)
  | .ok rendering => writeRendering path rendering around

/-- The scribe after its result became another one by a change at a path. -/
def replaceResult (scribe : Scribe) (path : Path) (value : Value) (changed : Entries) : Scribe :=
  match scribe.schema, scribe.origin with
  | some schema, some origin =>
    let (origin, schema) := origin.follow schema path value
    { scribe with result := some changed, schema := some schema, origin := some origin }
  | _, _ => { scribe with result := some changed }

/-- Changes the fetched result at a path, and the schema with it where both have the same value. -/
def editResult (scribe : Scribe) (path : Path) (value : Value) : Except ScribeFault Scribe :=
  let result := (scribe.result.map Value.dict).getD .null
  match Value.edit value path result with
  | .error fault => .error (.misdirected fault)
  | .ok (.dict changed) => .ok (scribe.replaceResult (path.positions result) value changed)
  | .ok _ => .error (.misdirected .notAContainer)

/-! ## Steps -/

inductive Step where
  | add (name value : Value)
  | fetch (url : Option String)
  | build (result : Option Value)
  | write (path : String) (schema : Option Value)
  | editResult (path : List Value) (value : Value)

inductive Answer where
  | scribe
  | data (data : Value)
  | schema (schema : Schema)
  | nothing

structure Desk where
  scribe : Scribe
  around : Surroundings

/-- Keeps the scribe as it was if a step failed. -/
def settle {α : Type} (desk : Desk) (answer : α → Answer)
    (outcome : Except ScribeFault (α × Scribe)) (around : Surroundings) :
    Except ScribeFault Answer × Desk :=
  match outcome with
  | .ok (found, scribe) => (.ok (answer found), { scribe, around })
  | .error fault => (.error fault, { desk with around })

def step (desk : Desk) : Step → Except ScribeFault Answer × Desk
  | .add name value =>
    settle desk (fun () => .scribe) ((desk.scribe.add name value).map ((), ·)) desk.around
  | .fetch url =>
    let (outcome, around) := desk.scribe.fetch url desk.around
    settle desk .data outcome around
  | .build result =>
    let (outcome, around) := desk.scribe.build result desk.around
    settle desk .schema outcome around
  | .write path schema =>
    let (outcome, around) := desk.scribe.write path schema desk.around
    settle desk (fun () => .nothing) (outcome.map (·, desk.scribe)) around
  | .editResult path value =>
    settle desk (fun () => .nothing) ((desk.scribe.editResult path value).map ((), ·)) desk.around

end Scribe
end SchemaScribe
