import SchemaScribe.Proofs.Endpoint.Verdict

/-! # Requests and what comes back

A draft whose body can be written makes a request as long as its headers can be named, which they
always can if their names are texts. One request takes one reply: the next on the wire. A reply
hands out data, or it is the ground of one failure.
-/
namespace SchemaScribe

/-! ## Named headers -/

namespace Headers

/-- The names of the headers are texts. -/
def Named (headers : Entries) : Prop := ∀ header ∈ headers, header.1.isText = true

theorem Named.nil : Named [] := by
  intro header h
  simp at h

theorem Named.append {headers later : Entries} (h : Named headers) (hl : Named later) :
    Named (headers ++ later) := by
  intro header hh
  rcases List.mem_append.mp hh with hh | hh
  · exact h header hh
  · exact hl header hh

/-- An entry that is put changes no key, or it has a new one. -/
theorem Named.put {headers : Entries} (h : Named headers) {name : Value}
    (hname : name.isText = true) (value : Value) : Named (Entries.put name value headers) := by
  induction headers with
  | nil =>
    intro header hh
    obtain rfl : header = (name, value) := by simpa using hh
    exact hname
  | cons first rest ih =>
    obtain ⟨hfirst, hrest⟩ := List.forall_mem_cons.mp h
    unfold Entries.put
    split
    · exact List.forall_mem_cons.mpr ⟨hfirst, hrest⟩
    · exact List.forall_mem_cons.mpr ⟨hfirst, ih hrest⟩

theorem Named.ofList {headers : Entries} (h : Named headers) : Named (Entries.ofList headers) := by
  suffices hfold : ∀ done : Entries, Named done →
      Named (headers.foldl (fun done entry => Entries.put entry.1 entry.2 done) done) from
    hfold [] .nil
  induction headers with
  | nil => exact fun done hd => hd
  | cons first rest ih =>
    intro done hd
    obtain ⟨hfirst, hrest⟩ := List.forall_mem_cons.mp h
    exact ih hrest _ (hd.put hfirst first.2)

theorem Named.misnamed? {headers : Entries} (h : Named headers) :
    Headers.misnamed? headers = none := by
  rw [Headers.misnamed?, Option.map_eq_none_iff, List.find?_eq_none]
  intro header hh
  have htext : header.1.isText = true := h header hh
  cases hk : header.1 with
  | str name => simp [fold?]
  | _ => simp [hk, Value.isText] at htext

end Headers

/-! ## Requests -/

namespace Client
variable {client : Client} {draft : Draft}

theorem payload_of_body {body : Entries} (h : draft.body = .ok body) :
    payload draft = (Json.write .request (.dict body)).mapError .unwritable := by
  rw [payload, h]

/-- A body is made of variables that can be copied. -/
theorem payload_of_copyable (h : (Value.dict draft.bindings).uncopyable? = none) :
    payload draft = (Json.write .request (.dict (draft.bodyWith (.dict draft.bindings)))).mapError
      .unwritable := by
  simp [payload, Draft.body, Value.copy, h, Except.map]

theorem payload_of_uncopyable {reason : Value.Uncopyable} (h : draft.body = .error reason) :
    payload draft = .error (.uncopyable reason) := by
  simp [payload, h]

/-- A body that is made can be written, or something in it is told that cannot. -/
theorem payload_cases (draft : Draft) :
    (∃ reason, draft.body = .error reason ∧ payload draft = .error (.uncopyable reason)) ∨
      (∃ reason, payload draft = .error (.unwritable reason)) ∨ ∃ data, payload draft = .ok data := by
  cases hbody : draft.body with
  | error reason => exact .inl ⟨reason, rfl, payload_of_uncopyable hbody⟩
  | ok body =>
    rw [payload_of_body hbody]
    cases Json.write .request (.dict body) with
    | error reason => exact .inr (.inl ⟨reason, rfl⟩)
    | ok data => exact .inr (.inr ⟨data, rfl⟩)

theorem request_eq_ok {data : String} (hbody : payload draft = .ok data)
    (hnames : Headers.misnamed? (client.headers ++ draft.headers) = none) :
    client.request draft = .ok
      { url := client.url, data, headers := Headers.merged client.headers draft.headers
        timeout := client.timeout } := by
  simp [request, hbody, hnames]

/-- Where there is no body there is no request, and the fault is that of the body. -/
theorem request_of_payload {fault : ClientFault} (hbody : payload draft = .error fault) :
    client.request draft = .error fault := by
  simp [request, hbody]

theorem request_of_misnamed {data : String} {name : Value}
    (hbody : payload draft = .ok data)
    (hname : Headers.misnamed? (client.headers ++ draft.headers) = some name) :
    client.request draft = .error (.misnamedHeader name) := by
  simp [request, hbody, hname]

end Client

/-! ## Replies -/

/-- The reply that the next request takes. -/
def Wire.next (wire : Wire) : Reply := wire.replies.headD silence

/-- The wire after a request was sent. -/
def Wire.afterPost (wire : Wire) (request : Request) : Wire :=
  { wire with replies := wire.replies.tail, sent := wire.sent ++ [request] }

theorem Wire.post_eq (wire : Wire) (request : Request) :
    wire.post request = (wire.next, wire.afterPost request) := by
  obtain ⟨replies, sent, opened, closed⟩ := wire
  cases replies <;> rfl

namespace Reply

/-- Is it a response, or a failure of the transport itself? -/
def isOfTransport : Reply → Bool
  | .response .. => true
  | .failure name _ => isTransportFailure name

/-- A reply that hands out data is a response that does. -/
def Delivers : Reply → Value → Prop
  | .response status charset octets, data => Client.Delivers status (charset.decode octets) data
  | .failure .., _ => False

end Reply

/-- The kinds of failure on the way to the endpoint and in its answers. -/
def Kind.isOfEndpoint : Kind → Bool
  | .network | .http | .decode | .graphql => true
  | _ => false

theorem Kind.isPromised_of_isOfEndpoint {kind : Kind} (h : kind.isOfEndpoint = true) :
    kind.isPromised = true := by
  cases kind <;> first | rfl | cases h

namespace Client
variable {client : Client} {draft : Draft} {wire : Wire} {url : String} {reply : Reply}

theorem receive_eq_ok_iff {data : Value} :
    receive url reply = .ok data ↔ reply.Delivers data := by
  cases reply with
  | response status charset octets => exact accept_eq_ok_iff
  | failure name message =>
    simp only [receive, Reply.Delivers, iff_false]
    split <;> simp

/-- Every failure to accept a response is of a kind of its own. -/
theorem isOfEndpoint_of_accept {status : Int} {body : String} {fault : ClientFault}
    (h : accept url status body = .error fault) : fault.notice.kind.isOfEndpoint = true := by
  have hverdict := accept_verdict url status body
  rw [h] at hverdict
  generalize houtcome : (Except.error fault).mapError ClientFault.notice = outcome at hverdict
  cases hverdict with
  | data _ => cases houtcome
  | status _ hk _ | unreadable _ _ hk | reported _ _ _ _ _ hk _ | noData _ _ _ _ hk =>
    cases houtcome
    rw [hk]
    rfl

theorem isOfEndpoint_of_receive {fault : ClientFault} (hreply : reply.isOfTransport = true)
    (h : receive url reply = .error fault) : fault.notice.kind.isOfEndpoint = true := by
  cases reply with
  | response status charset octets => exact isOfEndpoint_of_accept h
  | failure name message =>
    have htransport : Reply.isTransportFailure name = true := hreply
    simp only [receive, htransport, if_true] at h
    cases h
    rfl

theorem execute_of_request {request : Request} (h : client.request draft = .ok request) :
    client.execute draft wire = (receive client.url wire.next, wire.afterPost request) := by
  simp [execute, h, Wire.post_eq]

theorem sent_run {request : Request} (h : client.request draft = .ok request)
    (type : Option ResultType) (wire : Wire) :
    (client.run draft type wire).2.sent = wire.sent ++ [request] := by
  have hwire : (client.run draft type wire).2 = (client.execute draft wire).2 := rfl
  rw [hwire, execute_of_request h]
  rfl

theorem execute_of_fault {fault : ClientFault} (h : client.request draft = .error fault) :
    client.execute draft wire = (.error fault, wire) := by
  simp [execute, h]

end Client

/-- A reply hands out no more than one value. -/
theorem Reply.Delivers.unique {reply : Reply} {data other : Value} (h : reply.Delivers data)
    (ho : reply.Delivers other) : data = other := by
  have hd : Client.receive "" reply = .ok data := Client.receive_eq_ok_iff.mpr h
  have hother : Client.receive "" reply = .ok other := Client.receive_eq_ok_iff.mpr ho
  exact Except.ok.inj (hd.symm.trans hother)

end SchemaScribe
