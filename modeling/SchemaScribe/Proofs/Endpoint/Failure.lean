import SchemaScribe.Proofs.Endpoint.Reception
import SchemaScribe.Proofs.Introspection.Success

/-! # Failures of a run

A run that gives no result fails, and its failure is announced: it is one of the way to the
endpoint, of the answer or of the conversion, or a body that cannot be written. Three things pass
through unannounced. Something in the variables may have no copy, a header may have a name without
letters, and a conversion may raise a failure that is not one of the value that it is given.
-/
namespace SchemaScribe.Client
open Success

/-- The failures that whoever runs a draft is told to expect. -/
inductive Announced (draft : Draft) (notice : Notice) : Prop
  | endpoint : notice.kind.isOfEndpoint = true → Announced draft notice
  | unwritable {reason : Json.Unwritable} :
      payload draft = .error (.unwritable reason) → notice.kind = .value → Announced draft notice

/-- A wanted type makes a failure of what a reply delivers. -/
def Raises (type : Option ResultType) (reply : Reply) (raised : Raised) : Prop :=
  ∃ wanted data, type = some wanted ∧ reply.Delivers data ∧ wanted.convert data = .error raised

/-- What has the failure of a run pass through unannounced. -/
inductive Exposes (client : Client) (draft : Draft) (type : Option ResultType) (reply : Reply) :
    Prop
  | uncopyable {reason : Value.Uncopyable} : draft.body = .error reason →
      Exposes client draft type reply
  | misnamed {body : String} {name : Value} : payload draft = .ok body →
      Headers.misnamed? (client.headers ++ draft.headers) = some name →
      Exposes client draft type reply
  | raised {body : String} {raised : Raised} : payload draft = .ok body →
      Raises type reply raised → raised.isOfValue = false → raised.kind.isOfEndpoint = false →
      Exposes client draft type reply

variable {client : Client} {draft : Draft} {wire : Wire} {type : Option ResultType}

/-! ## Endings of a run -/

/-- The failure of a run whose conversion raises one. -/
def raisedFault (wanted : ResultType) (raised : Raised) : ClientFault :=
  if raised.isOfValue then .conversion wanted.name raised else .escaped raised

theorem convert_of_raised {wanted : ResultType} {data : Value} {raised : Raised}
    (h : wanted.convert data = .error raised) :
    convert wanted data = .error (raisedFault wanted raised) := by
  simp only [convert, h, raisedFault]
  split <;> rfl

theorem convert_eq_error {wanted : ResultType} {data : Value} {fault : ClientFault}
    (h : convert wanted data = .error fault) :
    ∃ raised, wanted.convert data = .error raised ∧ fault = raisedFault wanted raised := by
  cases hc : wanted.convert data with
  | ok result => simp [convert, hc] at h
  | error raised =>
    rw [convert_of_raised hc] at h
    exact ⟨raised, rfl, (Except.error.inj h).symm⟩

theorem run_of_fault {fault : ClientFault} (h : client.request draft = .error fault) :
    (client.run draft type wire).1 = .error fault := by
  cases type <;> simp [run, execute_of_fault h, Except.bind]

theorem run_of_refusal {request : Request} {fault : ClientFault}
    (hrequest : client.request draft = .ok request)
    (h : receive client.url wire.next = .error fault) :
    (client.run draft type wire).1 = .error fault := by
  cases type <;> simp [run, execute_of_request hrequest, h, Except.bind]

theorem run_of_delivery {request : Request} {data : Value}
    (hrequest : client.request draft = .ok request) (h : wire.next.Delivers data) :
    (client.run draft none wire).1 = .ok data ∧
      ∀ wanted, (client.run draft (some wanted) wire).1 = convert wanted data := by
  simp [run, execute_of_request hrequest, receive_eq_ok_iff.mpr h, Except.bind]

/-- A run fails where no request is made, where the reply hands out nothing, or where the conversion
raises a failure. -/
theorem run_eq_error {fault : ClientFault} (h : (client.run draft type wire).1 = .error fault) :
    client.request draft = .error fault ∨
      ∃ request, client.request draft = .ok request ∧
        (receive client.url wire.next = .error fault ∨
          ∃ wanted data raised, type = some wanted ∧ wire.next.Delivers data ∧
            wanted.convert data = .error raised ∧ fault = raisedFault wanted raised) := by
  cases hrequest : client.request draft with
  | error refused =>
    rw [run_of_fault hrequest] at h
    cases h
    exact .inl rfl
  | ok request =>
    refine .inr ⟨request, rfl, ?_⟩
    cases hreceive : receive client.url wire.next with
    | error refused =>
      rw [run_of_refusal hrequest hreceive] at h
      exact .inl h
    | ok data =>
      have hdata : wire.next.Delivers data := receive_eq_ok_iff.mp hreceive
      obtain ⟨hnone, hsome⟩ := run_of_delivery hrequest hdata
      cases type with
      | none =>
        rw [hnone] at h
        cases h
      | some wanted =>
        rw [hsome wanted] at h
        obtain ⟨raised, hraised, rfl⟩ := convert_eq_error h
        exact .inr ⟨wanted, data, raised, rfl, hdata, hraised, rfl⟩

theorem run_of_raises {request : Request} {raised : Raised}
    (hrequest : client.request draft = .ok request) (h : Raises type wire.next raised) :
    ∃ wanted, (client.run draft type wire).1 = .error (raisedFault wanted raised) := by
  obtain ⟨wanted, data, rfl, hdata, hraised⟩ := h
  exact ⟨wanted, ((run_of_delivery hrequest hdata).2 wanted).trans (convert_of_raised hraised)⟩

/-! ## What is announced -/

theorem request_eq_error {fault : ClientFault} (h : client.request draft = .error fault) :
    Announced draft fault.notice ∨
      (∃ reason, draft.body = .error reason) ∨
      ∃ body name, payload draft = .ok body ∧
        Headers.misnamed? (client.headers ++ draft.headers) = some name := by
  rcases payload_cases draft with ⟨reason, hbody, -⟩ | ⟨reason, hpayload⟩ | ⟨body, hpayload⟩
  · exact .inr (.inl ⟨reason, hbody⟩)
  · rw [request_of_payload hpayload] at h
    cases h
    exact .inl (.unwritable hpayload rfl)
  · cases hname : Headers.misnamed? (client.headers ++ draft.headers) with
    | none =>
      rw [request_eq_ok hpayload hname] at h
      cases h
    | some name => exact .inr (.inr ⟨body, name, hpayload, rfl⟩)

theorem exists_payload_of_request {request : Request} (h : client.request draft = .ok request) :
    ∃ body, payload draft = .ok body := by
  cases hpayload : payload draft with
  | error fault =>
    rw [request_of_payload hpayload] at h
    cases h
  | ok body => exact ⟨body, rfl⟩

/-- A failure of the value is told as one of the endpoint, any other as it was raised. -/
theorem kind_raisedFault (wanted : ResultType) (raised : Raised) :
    (raisedFault wanted raised).notice.kind = if raised.isOfValue then .decode else raised.kind := by
  unfold raisedFault
  split <;> rfl

theorem exposes_of_unannounced (hreply : wire.next.isOfTransport = true) {fault : ClientFault}
    (hfault : (client.run draft type wire).1 = .error fault)
    (h : ¬ Announced draft fault.notice) : Exposes client draft type wire.next := by
  rcases run_eq_error hfault with hrequest |
    ⟨request, hrequest, hreceive | ⟨wanted, data, raised, rfl, hdata, hraised, rfl⟩⟩
  · rcases (request_eq_error hrequest).resolve_left h with ⟨reason, hbody⟩ | ⟨body, name, hbody, hname⟩
    · exact .uncopyable hbody
    · exact .misnamed hbody hname
  · exact absurd (.endpoint (isOfEndpoint_of_receive hreply hreceive)) h
  · have hkind : (raisedFault wanted raised).notice.kind.isOfEndpoint = false :=
      Bool.eq_false_iff.mpr fun hk => h (.endpoint hk)
    rw [kind_raisedFault] at hkind
    cases hvalue : raised.isOfValue with
    | true =>
      rw [hvalue] at hkind
      cases hkind
    | false =>
      rw [hvalue] at hkind
      obtain ⟨body, hbody⟩ := exists_payload_of_request hrequest
      exact .raised hbody ⟨wanted, data, rfl, hdata, hraised⟩ hvalue hkind

theorem not_announced (hbody : ∀ reason, payload draft ≠ .error (.unwritable reason))
    {notice : Notice} (h : notice.kind.isOfEndpoint = false) : ¬ Announced draft notice := by
  intro ha
  cases ha with
  | endpoint hk =>
    rw [h] at hk
    cases hk
  | unwritable hreason _ => exact hbody _ hreason

theorem not_unwritable_of_ok {body : String} (h : payload draft = .ok body)
    (reason : Json.Unwritable) : payload draft ≠ .error (.unwritable reason) := by
  rw [h]
  exact nofun

theorem Exposes.unannounced (h : Exposes client draft type wire.next) :
    ∃ fault, (client.run draft type wire).1 = .error fault ∧ ¬ Announced draft fault.notice := by
  cases h with
  | uncopyable hbody =>
    have hpayload := payload_of_uncopyable hbody
    refine ⟨_, run_of_fault (request_of_payload hpayload), not_announced (fun reason => ?_) rfl⟩
    rw [hpayload]
    exact nofun
  | misnamed hbody hname =>
    exact ⟨_, run_of_fault (request_of_misnamed hbody hname),
      not_announced (not_unwritable_of_ok hbody) rfl⟩
  | raised hbody hraises hvalue hkind =>
    cases hname : Headers.misnamed? (client.headers ++ draft.headers) with
    | some name =>
      exact ⟨_, run_of_fault (request_of_misnamed hbody hname),
        not_announced (not_unwritable_of_ok hbody) rfl⟩
    | none =>
      obtain ⟨wanted, hrun⟩ := run_of_raises (request_eq_ok hbody hname) hraises
      refine ⟨_, hrun, not_announced (not_unwritable_of_ok hbody) ?_⟩
      rw [kind_raisedFault, hvalue]
      exact hkind

/-! ## Records -/

section Records
variable {name : String} {fields : List (String × Option Value)} {raised : Raised}

theorem isOfValue_of_unfit {α : Type} {message : String}
    (h : (ResultType.unfit message : Except Raised α) = .error raised) :
    raised.isOfValue = true := by
  cases h
  rfl

theorem isOfValue_of_checkGiven {given : List (String × Value)}
    (h : ResultType.checkGiven name fields given = .error raised) : raised.isOfValue = true := by
  induction given with
  | nil => cases h
  | cons member rest ih =>
    rw [ResultType.checkGiven] at h
    split at h
    · exact isOfValue_of_unfit h
    · split at h
      · exact isOfValue_of_unfit h
      · exact ih h

theorem isOfValue_of_makeRecord {given : List (String × Value)}
    (h : ResultType.makeRecord name fields given = .error raised) : raised.isOfValue = true := by
  rw [ResultType.makeRecord] at h
  cases hgiven : ResultType.checkGiven name fields given with
  | error found =>
    rw [hgiven] at h
    cases h
    exact isOfValue_of_checkGiven hgiven
  | ok _ =>
    rw [hgiven, ok_bind] at h
    dsimp only at h
    split at h
    · cases h
    · exact isOfValue_of_unfit h

/-- To make a record of a value can only fail for the value. -/
theorem isOfValue_of_record {data : Value}
    (h : (ResultType.record name fields).convert data = .error raised) :
    raised.isOfValue = true := by
  cases data with
  | dict entries => exact isOfValue_of_makeRecord h
  | _ => exact isOfValue_of_unfit h

end Records

/-! ## The whole run -/

/-- Data without a member that is then asked for. -/
def emptyOctets : List UInt8 :=
  "\x7b\"data\": \x7b\x7d\x7d".toList.map fun c => c.toNat.toUInt8

def emptyWire : Wire := { replies := [.response 200 .utf8 emptyOctets] }

def userMember : ResultType := .function "get_user" (ResultType.memberNamed "user")

def missingUser : Raised := { kind := .key, message := Text.quote "user" }

theorem raises_missingUser : Raises (some userMember) emptyWire.next missingUser := by
  have hdata : Delivers 200 (Text.Charset.utf8.decode emptyOctets) (.dict []) := by
    refine delivers_of_ascii ⟨by decide, by decide⟩ (by decide +kernel) ?_
    rw [Json.read, String.toList_ofList]
    rfl
  exact ⟨userMember, .dict [], rfl, hdata, rfl⟩

theorem hero_payload : ∃ body, payload hero = .ok body := ⟨_, rfl⟩

theorem exposes_missingUser : Exposes heroClient hero (some userMember) emptyWire.next := by
  obtain ⟨body, hbody⟩ := hero_payload
  exact .raised hbody raises_missingUser rfl rfl

end SchemaScribe.Client
