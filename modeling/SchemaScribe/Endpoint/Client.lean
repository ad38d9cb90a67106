import SchemaScribe.Endpoint.ResultType
import SchemaScribe.Endpoint.Wire
import SchemaScribe.Json.Reader
import SchemaScribe.Json.Writer
import SchemaScribe.Request.Draft
import SchemaScribe.Request.Headers

/-! # Clients of an endpoint

A client sends drafts to one endpoint, one request for each. It answers with the data of the
response or with exactly one failure; a response that reports errors has no data, whatever it holds
besides.
-/
namespace SchemaScribe

structure Client where
  url : String
  timeout : Value := .null
  headers : Entries := []
  ownsSession : Bool := false

inductive ClientFault where
  | uncopyable (reason : Value.Uncopyable)
  | unwritable (reason : Json.Unwritable)
  | misnamedHeader (name : Value)
  | unreachable (url name message : String)
  | interrupted (name message : String)
  | status (code : Int) (body : String)
  | notJson (url : String) (fault : Json.Fault)
  | notAnObject (found : Value)
  | reported (errors : List Value) (data : Value)
  | noData (members : List Value)
  | conversion (target : String) (raised : Raised)
  | escaped (raised : Raised)

namespace Client

/-! ## Sessions -/

/-- A client with the session that it is given, or with one that it opens for itself. -/
def start (client : Client) (wire : Wire) : Wire :=
  if client.ownsSession then wire.openSession else wire

/-- Closes the session if it is the client's own. -/
def close (client : Client) (wire : Wire) : Wire :=
  if client.ownsSession then wire.closeSession else wire

section Sessions
variable (client : Client) (wire : Wire)

@[simp] theorem replies_start : (client.start wire).replies = wire.replies := by
  unfold start
  split <;> rfl

@[simp] theorem sent_start : (client.start wire).sent = wire.sent := by
  unfold start
  split <;> rfl

@[simp] theorem replies_close : (client.close wire).replies = wire.replies := by
  unfold close
  split <;> rfl

@[simp] theorem sent_close : (client.close wire).sent = wire.sent := by
  unfold close
  split <;> rfl

end Sessions

/-! ## Requests -/

/-- The text of a draft's body. The body is made before it is written. -/
def payload (draft : Draft) : Except ClientFault String :=
  match draft.body with
  | .error reason => .error (.uncopyable reason)
  | .ok body => (Json.write .request (.dict body)).mapError .unwritable

def request (client : Client) (draft : Draft) : Except ClientFault Request :=
  match payload draft with
  | .error fault => .error fault
  | .ok data =>
    match Headers.misnamed? (client.headers ++ draft.headers) with
    | some name => .error (.misnamedHeader name)
    | none =>
      .ok { url := client.url, data, headers := Headers.merged client.headers draft.headers
            timeout := client.timeout }

/-! ## Responses -/

def isSuccess (status : Int) : Bool := 200 ≤ status && status < 300

def errorList : Value → List Value
  | .list errors => errors
  | error => [error]

/-- The data of a response that is an object. -/
def dataOf (members : Entries) : Except ClientFault Value :=
  let errors := (Value.lookup "errors" members).getD .null
  if errors.truthy then
    .error (.reported (errorList errors) ((Value.lookup "data" members).getD .null))
  else
    match Value.lookup "data" members with
    | some data => .ok data
    | none => .error (.noData (members.map Prod.fst))

/-- The data of a response with a status and a body. -/
def accept (url : String) (status : Int) (body : String) : Except ClientFault Value :=
  if !isSuccess status then .error (.status status body)
  else
    match Json.read body with
    | .error fault => .error (.notJson url fault)
    | .ok (.dict members) => dataOf members
    | .ok found => .error (.notAnObject found)

def receive (url : String) : Reply → Except ClientFault Value
  | .response status charset octets => accept url status (charset.decode octets)
  | .failure name message =>
    let text := Reply.failureText name message
    if Reply.isTransportFailure name then .error (.unreachable url name text)
    else .error (.interrupted name text)

/-- Sends a draft, unless it makes no request, and answers with the data. -/
def execute (client : Client) (draft : Draft) (wire : Wire) : Except ClientFault Value × Wire :=
  match client.request draft with
  | .error fault => (.error fault, wire)
  | .ok request =>
    let (reply, after) := wire.post request
    (receive client.url reply, after)

/-- The data in the wanted type. Only failures of the value itself count as failures to convert. -/
def convert (type : ResultType) (data : Value) : Except ClientFault Value :=
  match type.convert data with
  | .ok result => .ok result
  | .error raised =>
    if raised.isOfValue then .error (.conversion type.name raised)
    else .error (.escaped raised)

/-- Sends a draft and answers with the data, in the wanted type if there is one. -/
def run (client : Client) (draft : Draft) (type : Option ResultType) (wire : Wire) :
    Except ClientFault Value × Wire :=
  let (answer, after) := client.execute draft wire
  (match type with
    | none => answer
    | some type => answer.bind (convert type), after)

end Client

namespace ClientFault

def unwritableKind : Json.Unwritable → Kind
  | .notFinite | .longInteger => .value
  | .value _ | .key _ => .unfit

def jsonKind : Json.Fault → Kind
  | .malformed .. => .json
  | .longInteger _ => .value

def notice : ClientFault → Notice
  | .uncopyable reason => reason.notice
  | .unwritable reason =>
    { kind := .value
      message := "GraphQL variables must be JSON-serializable: " ++ reason.message
      cause := some (unwritableKind reason) }
  | .misnamedHeader _ => { kind := .noMember }
  | .unreachable url name message =>
    { kind := .network
      message := "Failed to reach GraphQL endpoint " ++ url ++ ": " ++ message
      cause := some (.outside name) }
  | .interrupted name message => { kind := .outside name, message }
  | .status code body => (Notice.http? (.int code) (.str body)).getD .unfit
  | .notJson url fault =>
    { kind := .decode
      message := "GraphQL endpoint " ++ url ++ " returned a body that is not valid JSON: " ++
        fault.message Numeral.digitLimit
      cause := some (jsonKind fault) }
  | .notAnObject found =>
    { kind := .decode
      message := "Expected the GraphQL response to be a JSON object, but got: " ++ found.display }
  | .reported errors data => (Notice.graphql? (.list errors) data).getD .unfit
  | .noData members =>
    { kind := .decode
      message := "GraphQL response has no \"data\" member. Keys present: " ++
        (Value.list members).display }
  | .conversion target raised =>
    { kind := .decode
      message := "Could not convert GraphQL \"data\" into " ++ target ++ ": " ++ raised.message
      cause := some raised.kind }
  | .escaped raised => { kind := raised.kind, message := raised.message }

end ClientFault
end SchemaScribe
