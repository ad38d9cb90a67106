import SchemaScribe.Endpoint.Client

/-! # The verdict on a response

A response with any status and any body ends in one way: with its data, or with one failure. The
status decides first, then whether the body can be read, then whether errors are reported, and last
whether there is data. Data beside errors is kept with the failure and never handed out.
-/
namespace SchemaScribe
namespace Text

theorem utf8From_ascii {chars : List Char} (h : ∀ c ∈ chars, c.toNat < 0x80) :
    utf8From .start (chars.map fun c => c.toNat.toUInt8) = chars := by
  induction chars with
  | nil => rfl
  | cons c chars ih =>
    obtain ⟨hc, hrest⟩ := List.forall_mem_cons.mp h
    have hoctet : c.toNat.toUInt8.toNat = c.toNat :=
      Nat.mod_eq_of_lt (Nat.lt_of_lt_of_le hc (by decide))
    rw [List.map_cons, utf8From, utf8Step, hoctet, utf8Start, if_pos hc, Char.ofNat_toNat]
    exact congrArg (c :: ·) (ih hrest)

/-- A text of ASCII characters is decoded as it was encoded. -/
theorem decode_ascii {text : String} (h : text.toList.all (fun c => c.toNat < 0x80) = true) :
    Charset.utf8.decode (text.toList.map fun c => c.toNat.toUInt8) = text := by
  have hascii : ∀ c ∈ text.toList, c.toNat < 0x80 := by simpa using h
  rw [Charset.decode, utf8From_ascii hascii, String.ofList_toList]

end Text

namespace Client

/-- The errors that are reported by a member: the items of a list, or else the member alone. -/
inductive Reports : Value → List Value → Prop
  | several {errors : List Value} : Reports (.list errors) errors
  | single {error : Value} : (∀ errors, error ≠ .list errors) → Reports error [error]

def Accepted (status : Int) : Prop := 200 ≤ status ∧ status < 300

def Unreported (members : Entries) : Prop :=
  ∀ errors, Value.lookup "errors" members = some errors → errors.truthy = false

/-- A response that hands out data. -/
structure Delivers (status : Int) (body : String) (data : Value) : Prop where
  accepted : Accepted status
  held : ∃ members, Json.read body = .ok (.dict members) ∧ Unreported members ∧
    Value.lookup "data" members = some data

/-- What a response with a status and a body ends in, whatever the wording of a failure. -/
inductive Verdict (status : Int) (body : String) : Except Notice Value → Prop
  | data {data : Value} : Delivers status body data → Verdict status body (.ok data)
  | status {notice : Notice} : ¬ Accepted status → notice.kind = .http →
      notice.details = [("status_code", .int status), ("body", .str body)] →
      Verdict status body (.error notice)
  | unreadable {notice : Notice} : Accepted status →
      (∀ members, Json.read body ≠ .ok (.dict members)) → notice.kind = .decode →
      Verdict status body (.error notice)
  | reported {notice : Notice} {members : Entries} {member : Value} {errors : List Value} :
      Accepted status → Json.read body = .ok (.dict members) →
      Value.lookup "errors" members = some member → member.truthy = true → Reports member errors →
      notice.kind = .graphql →
      notice.details = [("errors", .list errors),
        ("data", (Value.lookup "data" members).getD .null),
        ("messages", .tuple (errors.map fun error => .str (Notice.errorMessage error)))] →
      Verdict status body (.error notice)
  | noData {notice : Notice} {members : Entries} : Accepted status →
      Json.read body = .ok (.dict members) → Unreported members →
      Value.lookup "data" members = none → notice.kind = .decode →
      Verdict status body (.error notice)

variable {client : Client} {draft : Draft} {wire : Wire} {url body : String} {status : Int}

theorem reports_errorList (error : Value) : Reports error (errorList error) := by
  unfold errorList
  split
  · exact .several
  next hlist => exact .single fun errors h => hlist errors h

theorem isSuccess_iff : isSuccess status = true ↔ Accepted status := by
  simp [isSuccess, Accepted]

theorem isSuccess_eq_false_iff : isSuccess status = false ↔ ¬ Accepted status := by
  rw [← isSuccess_iff, Bool.not_eq_true]

/-! ## One ending -/

theorem accept_of_not_accepted (h : ¬ Accepted status) :
    accept url status body = .error (.status status body) := by
  simp [accept, isSuccess_eq_false_iff.mpr h]

theorem accept_of_read {members : Entries} (hs : Accepted status)
    (hr : Json.read body = .ok (.dict members)) : accept url status body = dataOf members := by
  simp [accept, isSuccess_iff.mpr hs, hr]

theorem accept_of_unreadable (url : String) (hs : Accepted status)
    (hr : ∀ members, Json.read body ≠ .ok (.dict members)) :
    ∃ fault, accept url status body = .error fault ∧ fault.notice.kind = .decode := by
  unfold accept
  rw [isSuccess_iff.mpr hs, Bool.not_true, if_neg (by simp)]
  split
  · exact ⟨_, rfl, rfl⟩
  next members hread => exact absurd hread (hr members)
  · exact ⟨_, rfl, rfl⟩

theorem dataOf_of_reported {members : Entries} {member : Value}
    (hm : Value.lookup "errors" members = some member) (ht : member.truthy = true) :
    dataOf members = .error (.reported (errorList member)
      ((Value.lookup "data" members).getD .null)) := by
  simp [dataOf, hm, ht]

theorem Unreported.falsy {members : Entries} (h : Unreported members) :
    ((Value.lookup "errors" members).getD .null).truthy = false := by
  cases he : Value.lookup "errors" members with
  | none => rfl
  | some errors => exact h errors he

theorem dataOf_of_data {members : Entries} {data : Value} (h : Unreported members)
    (hd : Value.lookup "data" members = some data) : dataOf members = .ok data := by
  simp [dataOf, h.falsy, hd]

theorem dataOf_of_noData {members : Entries} (h : Unreported members)
    (hd : Value.lookup "data" members = none) :
    dataOf members = .error (.noData (members.map Prod.fst)) := by
  simp [dataOf, h.falsy, hd]

theorem dataOf_verdict {members : Entries} (hs : Accepted status)
    (hr : Json.read body = .ok (.dict members)) :
    Verdict status body ((dataOf members).mapError ClientFault.notice) := by
  by_cases hu : Unreported members
  · cases hd : Value.lookup "data" members with
    | none =>
      rw [dataOf_of_noData hu hd]
      exact .noData hs hr hu hd rfl
    | some data =>
      rw [dataOf_of_data hu hd]
      exact .data ⟨hs, members, hr, hu, hd⟩
  · obtain ⟨member, hm, ht⟩ : ∃ member, Value.lookup "errors" members = some member ∧
        member.truthy = true := by simpa [Unreported] using hu
    rw [dataOf_of_reported hm ht]
    refine .reported hs hr hm ht (reports_errorList member) rfl ?_
    simp [ClientFault.notice, Notice.graphql?, Value.items?, Notice.errorMessages, Function.comp_def]

/-- Every response has a verdict, which is what the response is found to end in. -/
theorem accept_verdict (url : String) (status : Int) (body : String) :
    Verdict status body ((accept url status body).mapError ClientFault.notice) := by
  -- The cases come in the order in which the verdict is decided.
  by_cases hs : Accepted status
  · by_cases hr : ∃ members, Json.read body = .ok (.dict members)
    · obtain ⟨members, hr⟩ := hr
      rw [accept_of_read hs hr]
      exact dataOf_verdict hs hr
    · have hnone : ∀ members, Json.read body ≠ .ok (.dict members) := not_exists.mp hr
      obtain ⟨fault, ha, hk⟩ := accept_of_unreadable url hs hnone
      rw [ha]
      exact .unreadable hs hnone hk
  · rw [accept_of_not_accepted hs]
    exact .status hs rfl rfl

/-- No response has another verdict: it would have the same data, or be a failure of the same
kind. -/
theorem Verdict.agrees {outcome : Except Notice Value} (h : Verdict status body outcome)
    (url : String) :
    outcome.mapError (·.kind) = (accept url status body).mapError (·.notice.kind) := by
  cases h with
  | data h =>
    obtain ⟨hs, members, hr, hu, hd⟩ := h
    rw [accept_of_read hs hr, dataOf_of_data hu hd]
    rfl
  | status hs hk _ =>
    rw [accept_of_not_accepted hs]
    exact congrArg Except.error hk
  | unreadable hs hr hk =>
    obtain ⟨fault, ha, hf⟩ := accept_of_unreadable url hs hr
    rw [ha]
    exact congrArg Except.error (hk.trans hf.symm)
  | reported hs hr hm ht _ hk _ =>
    rw [accept_of_read hs hr, dataOf_of_reported hm ht]
    exact congrArg Except.error hk
  | noData hs hr hu hd hk =>
    rw [accept_of_read hs hr, dataOf_of_noData hu hd]
    exact congrArg Except.error hk

theorem accept_eq_ok_iff {data : Value} :
    accept url status body = .ok data ↔ Delivers status body data := by
  constructor
  · intro h
    have hv : Verdict status body (.ok data) := by
      have hv := accept_verdict url status body
      rwa [h] at hv
    cases hv with
    | data hd => exact hd
  · intro h
    have ha := (Verdict.data h).agrees url
    cases hc : accept url status body with
    | ok found =>
      rw [hc] at ha
      exact congrArg Except.ok (Except.ok.inj ha).symm
    | error fault =>
      rw [hc] at ha
      cases ha

/-! ## Execution -/

theorem execute_eq_accept {data : String} {charset : Text.Charset} {octets : List UInt8}
    {rest : List Reply} (hbody : payload draft = .ok data)
    (hnames : Headers.misnamed? (client.headers ++ draft.headers) = none)
    (hreply : wire.replies = .response status charset octets :: rest) :
    (client.execute draft wire).1 = accept client.url status (charset.decode octets) := by
  simp [execute, request, hbody, hnames, Wire.post, hreply, receive]

/-- A draft is sent if its body can be written and its headers can be named. Where it is answered it
ends in the verdict on the response and in no other, and it gives data exactly if the response
delivers that data. -/
theorem execute_verdict {data : String} {charset : Text.Charset} {octets : List UInt8}
    {rest : List Reply} (hbody : payload draft = .ok data)
    (hnames : Headers.misnamed? (client.headers ++ draft.headers) = none)
    (hreply : wire.replies = .response status charset octets :: rest) :
    (∀ found, (client.execute draft wire).1 = .ok found ↔
      Delivers status (charset.decode octets) found) ∧
    Verdict status (charset.decode octets)
      ((client.execute draft wire).1.mapError ClientFault.notice) ∧
    ∀ outcome, Verdict status (charset.decode octets) outcome →
      outcome.mapError (·.kind) = (client.execute draft wire).1.mapError (·.notice.kind) := by
  rw [execute_eq_accept hbody hnames hreply]
  exact ⟨fun found => accept_eq_ok_iff, accept_verdict _ _ _, fun outcome h => h.agrees client.url⟩

/-- A body of ASCII characters delivers the data that is all it holds. -/
theorem delivers_of_ascii {text : String} {data : Value} (hstatus : Accepted status)
    (hascii : text.toList.all (fun c => c.toNat < 0x80) = true)
    (hread : Json.read text = .ok (.dict [(.str "data", data)])) :
    Delivers status (Text.Charset.utf8.decode (text.toList.map fun c => c.toNat.toUInt8)) data := by
  rw [Text.decode_ascii hascii]
  exact ⟨hstatus, _, hread, by simp [Unreported, Value.lookup], rfl⟩

/-- An error that is no list, with data beside it. -/
def busyOctets : List UInt8 :=
  "\x7b\"errors\": 1, \"data\": 2\x7d".toList.map fun c => c.toNat.toUInt8

theorem busyOctets_read : Json.read (Text.Charset.utf8.decode busyOctets) =
    .ok (.dict [(.str "errors", .int 1), (.str "data", .int 2)]) := by
  have hdecoded : Text.Charset.utf8.decode busyOctets = _ := Text.decode_ascii (by decide +kernel)
  rw [hdecoded, Json.read, String.toList_ofList]
  rfl

def hero : Draft := { query := "\x7b hero \x7d" }

def heroClient : Client := { url := "/graphql" }

def busyWire : Wire := { replies := [.response 200 .utf8 busyOctets] }

theorem execute_verdict_busy : (∃ data, payload hero = .ok data) ∧
    Headers.misnamed? (heroClient.headers ++ hero.headers) = none ∧
    busyWire.replies = [.response 200 .utf8 busyOctets] ∧
    (heroClient.execute hero busyWire).1.mapError (·.notice.kind) = .error .graphql := by
  have hbody : ∃ data, payload hero = .ok data := ⟨_, rfl⟩
  have hnames : Headers.misnamed? (heroClient.headers ++ hero.headers) = none := rfl
  have hreply : busyWire.replies = [.response 200 .utf8 busyOctets] := rfl
  obtain ⟨data, hdata⟩ := hbody
  obtain ⟨-, -, hother⟩ := execute_verdict hdata hnames hreply
  have hverdict : Verdict 200 (Text.Charset.utf8.decode busyOctets)
      (.error (ClientFault.notice (.reported [.int 1] (.int 2)))) :=
    .reported ⟨by decide, by decide⟩ busyOctets_read rfl rfl (.single (by simp)) rfl rfl
  exact ⟨⟨data, hdata⟩, hnames, hreply, (hother _ hverdict).symm⟩

end Client
end SchemaScribe
