import SchemaScribe.Schema.Malformed
import SchemaScribe.Sdl.Printer
import SchemaScribe.Value.Copy
import SchemaScribe.Value.Edit

/-! # Notices

A failure as its caller is told of it: its kind, its wording, what it carries beside the wording,
and the kind of failure that it goes back to, if there is one.
-/
namespace SchemaScribe

/-- The kinds of failures: first those that the program promises, then those of a value that is used
for what it is not fit for, and last those that come from outside under a name of their own. -/
inductive Kind where
  | any
  | network
  | http
  | decode
  | graphql
  | schemaBuild
  | schemaWrite
  | argument
  | unfit
  | noMember
  | value
  | key
  | index
  | assertion
  | overflow
  | json
  | outside (name : String)
deriving DecidableEq, Repr

/-- The kinds that a caller is promised: every other kind passes through the command line. -/
def Kind.isPromised : Kind → Bool
  | .any | .network | .http | .decode | .graphql | .schemaBuild | .schemaWrite => true
  | _ => false

structure Notice where
  kind : Kind
  message : String := ""
  details : List (String × Value) := []
  cause : Option Kind := none

namespace Notice

/-- The number of characters of a body that a notice shows. -/
def shownBody : Nat := 200

/-- The start of a body that is shown. What has no start cannot be a body. -/
def bodyStart? : Value → Option Value
  | .str s => some (.str (String.ofList (s.toList.take shownBody)))
  | .torn text => some (Value.ofCodes (text.codes.take shownBody))
  | .bytes octets => some (.bytes (octets.take shownBody))
  | .list xs => some (.list (xs.take shownBody))
  | .tuple xs => some (.tuple (xs.take shownBody))
  | _ => none

def http? (status body : Value) : Option Notice :=
  (bodyStart? body).map fun start =>
    { kind := .http
      message := "GraphQL endpoint returned HTTP status " ++ status.display ++ ": " ++ start.display
      details := [("status_code", status), ("body", body)] }

/-- The wording of one error that a server reports: its message if that is a text. -/
def errorMessage (error : Value) : String :=
  match error with
  | .dict entries =>
    match Value.lookup "message" entries with
    | some (.str message) => message
    | some (.torn message) => message.shown
    | _ => error.display
  | _ => error.display

def errorMessages (errors : List Value) : List String := errors.map errorMessage

/-- Errors that a server reports, with the data beside them. -/
def graphql? (errors data : Value) : Option Notice :=
  errors.items?.map fun items =>
    { kind := .graphql
      message := "GraphQL errors: " ++ Text.joinWith "; " (errorMessages items)
      details := [("errors", errors), ("data", data),
        ("messages", .tuple ((errorMessages items).map .str))] }

def schemaBuild (reason : Value) : Notice :=
  { kind := .schemaBuild, message := reason.display, details := [("reason", reason)] }

def schemaWrite (path reason : Value) (cause : Option Kind) : Notice :=
  { kind := .schemaWrite
    message := "Could not write schema to \"" ++ path.display ++ "\": " ++ reason.display
    details := [("path", path)], cause }

/-- The wording of a failure that only keeps what it was given. -/
def plainText : List Value → String
  | [] => ""
  | [only] => only.display
  | several => (Value.tuple several).display

/-- A failure of a promised kind from what it is given. Values that do not fit make no failure of
that kind. -/
def make? (kind : Kind) (given : List Value) : Option Notice :=
  match kind, given with
  | .http, [status] => http? status (.str "")
  | .http, [status, body] => http? status body
  | .http, _ => none
  | .graphql, [errors] => graphql? errors .null
  | .graphql, [errors, data] => graphql? errors data
  | .graphql, _ => none
  | .schemaBuild, [reason] => some (schemaBuild reason)
  | .schemaBuild, _ => none
  | .schemaWrite, [path, reason] => some (schemaWrite path reason none)
  | .schemaWrite, _ => none
  | kind, given => some { kind, message := plainText given }

/-- A value that was used for what it is not fit for. -/
def unfit : Notice := { kind := .unfit }

def missingKey (key : Value) : Notice := { kind := .key, message := key.quoted }

end Notice

/-- The declaration of a name. A name that has none is told as a missing key. -/
def Schema.declaration (schema : Schema) (name : Value) : Except Notice TypeDef :=
  match schema.find? name with
  | some type => .ok type
  | none => .error (.missingKey name)

def BuildFault.notice : BuildFault → Notice
  | .malformed reason => .schemaBuild (.str reason.message)
  | .unhashable _ | .unordered _ => .unfit
  | .nameNotText _ | .noMembers _ => { kind := .noMember }

def Sdl.Unprintable.notice (fault : Unprintable) : Notice :=
  match fault with
  | .notATypeDef _ | .notATypeRef _ => { kind := .assertion, message := fault.message }
  | .notText _ | .notASequence _ => .unfit
  | .noMember .. => { kind := .noMember }

def Value.Uncopyable.notice (reason : Uncopyable) : Notice :=
  { kind := .unfit, message := reason.message }

/-- The word for a sequence that has no item at an index. Octets have none. -/
def Value.sequenceWord : Value → String
  | .tuple _ => "tuple "
  | .str _ | .torn _ => "string "
  | .bytes _ => ""
  | _ => "list "

def Value.PathFault.notice : PathFault → Notice
  | .noStep => { kind := .index, message := "list index out of range" }
  | .hugeIndex => { kind := .index, message := "cannot fit 'int' into an index-sized integer" }
  | .noItem sequence =>
    { kind := .index, message := sequence.sequenceWord ++ "index out of range" }
  | .noPlace => { kind := .index, message := "list assignment index out of range" }
  | .noKey key => .missingKey key
  | .notAContainer => .unfit

end SchemaScribe
