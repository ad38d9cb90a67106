import SchemaScribe.Endpoint.Client

/-! # A client at work

A client with the drafts that it is used with, each under a name. A call sends one of the drafts.
Every other step changes a draft or the headers of the client, or leaves the client, which closes
its own session.
-/
namespace SchemaScribe.Client

/-- Sets a header that is sent with every draft. A name that cannot be a key is refused. -/
def setHeader (client : Client) (name value : Value) : Option Client :=
  if name.hashable then some { client with headers := Entries.put name value client.headers } else none

theorem setHeader_eq_some {client changed : Client} {name value : Value}
    (h : client.setHeader name value = some changed) :
    changed = { client with headers := Entries.put name value client.headers } :=
  (Option.some.inj (Option.ite_none_right_eq_some.mp h).2).symm

inductive Step where
  | run (draft : String) (type : Option ResultType)
  | execute (draft : String)
  | setVariable (draft : String) (name value : Value)
  | setHeader (draft : String) (name value : Value)
  | setOperation (draft : String) (name : Value)
  | setClientHeader (name value : Value)
  | close
  | visit

inductive Answer where
  | data (data : Value)
  | client
  | nothing

structure Desk where
  client : Client
  drafts : List (String × Draft)
  wire : Wire

namespace Desk

/-- The draft of a name. There is an empty one for a name that was not given out. -/
def draft (desk : Desk) (name : String) : Draft := (desk.drafts.lookup name).getD { query := "" }

def replaceDraft (desk : Desk) (name : String) (draft : Draft) : Desk :=
  { desk with drafts := desk.drafts.map fun (n, old) => (n, if n = name then draft else old) }

/-- Takes up what was changed, or refuses a change that cannot be made. -/
def settle {α : Type} (desk : Desk) (answer : Answer) (take : α → Desk) :
    Option α → Except Notice Answer × Desk
  | some changed => (.ok answer, take changed)
  | none => (.error .unfit, desk)

/-- Takes up the outcome of a call. -/
def hear (desk : Desk) (outcome : Except ClientFault Value × Wire) :
    Except Notice Answer × Desk :=
  ((outcome.1.map .data).mapError (·.notice), { desk with wire := outcome.2 })

end Desk

def step (desk : Desk) : Step → Except Notice Answer × Desk
  | .run name type => desk.hear (desk.client.run (desk.draft name) type desk.wire)
  | .execute name => desk.hear (desk.client.execute (desk.draft name) desk.wire)
  | .setVariable draft name value =>
    desk.settle .nothing (desk.replaceDraft draft) ((desk.draft draft).setVariable name value)
  | .setHeader draft name value =>
    desk.settle .nothing (desk.replaceDraft draft) ((desk.draft draft).setHeader name value)
  | .setOperation draft name =>
    (.ok .nothing, desk.replaceDraft draft ((desk.draft draft).setOperation name))
  | .setClientHeader name value =>
    desk.settle .nothing (fun client => { desk with client }) (desk.client.setHeader name value)
  | .close => (.ok .nothing, { desk with wire := desk.client.close desk.wire })
  | .visit => (.ok .client, { desk with wire := desk.client.close desk.wire })

end SchemaScribe.Client
