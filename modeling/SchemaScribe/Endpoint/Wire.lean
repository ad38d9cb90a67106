import SchemaScribe.Notice
import SchemaScribe.Text.Charset

/-! # The wire to the endpoint

What passes between the program and the endpoint: the requests that were sent, the replies that are
still to come, and the sessions that were opened and closed. Each request takes one reply.
-/
namespace SchemaScribe

structure Request where
  url : String
  data : String
  headers : Entries
  timeout : Value

/-- What comes back: a response with its body, or a failure on the way. -/
inductive Reply where
  | response (status : Int) (charset : Text.Charset) (octets : List UInt8)
  | failure (name message : String)

namespace Reply

/-- The failures of the transport itself. Every other failure is none of its business. -/
def transportFailures : List String :=
  ["RequestException", "ConnectionError", "Timeout", "ConnectTimeout", "ReadTimeout", "SSLError",
   "TooManyRedirects", "InvalidURL", "MissingSchema", "ChunkedEncodingError", "HTTPError",
   "ProxyError", "InvalidHeader", "URLRequired", "InvalidSchema", "InvalidProxyURL",
   "ContentDecodingError", "StreamConsumedError", "RetryError", "UnrewindableBodyError",
   "InvalidJSONError"]

def isTransportFailure (name : String) : Bool := transportFailures.contains name

/-- A failure of an unknown kind shows its message as it is, a missing key is quoted. -/
def failureText (name message : String) : String :=
  if name = "KeyError" then Text.quote message else message

end Reply

/-- The state of the wire. Sent requests are kept from the oldest on. -/
structure Wire where
  replies : List Reply
  sent : List Request := []
  opened : Nat := 0
  closed : Nat := 0

namespace Wire

/-- The reply to a request for which none was foreseen. -/
def silence : Reply := .failure "ConnectionError" ""

/-- Sends a request and takes the next reply. -/
def post (wire : Wire) (request : Request) : Reply × Wire :=
  match wire.replies with
  | [] => (silence, { wire with sent := wire.sent ++ [request] })
  | reply :: rest => (reply, { wire with replies := rest, sent := wire.sent ++ [request] })

def openSession (wire : Wire) : Wire := { wire with opened := wire.opened + 1 }

def closeSession (wire : Wire) : Wire := { wire with closed := wire.closed + 1 }

@[simp] theorem sent_post (wire : Wire) (request : Request) :
    (wire.post request).2.sent = wire.sent ++ [request] := by
  unfold post
  split <;> rfl

@[simp] theorem replies_post (wire : Wire) (request : Request) :
    (wire.post request).2.replies = wire.replies.tail := by
  unfold post
  split <;> simp_all

end Wire
end SchemaScribe
